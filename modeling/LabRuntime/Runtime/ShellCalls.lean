import LabRuntime.Runtime.HostMoves
import LabRuntime.Runtime.ShellIo

/-! Every call of the owner moves its shell onward: its clocks never go back, what a query shows stays shown, and the
registries stay coherent. -/

namespace LabRuntime.Runtime

variable {σ : Type} {s s' : Runtime σ}

/-! ### Controllers -/

theorem knownController_shell (id : ControllerId) : Procedure.Moves SameShell (knownController id : Step σ NativeController) := by
  refine .bind .get fun s => ?_
  cases s.controllers.get id with
  | none => exact .stop _
  | some controller => exact .pure _

theorem captureControllerFact_shell (id : ControllerId) (now : ℕ) :
    Procedure.Moves SameShell (captureControllerFact id now : Step σ PUnit) := .update fun s => by
  cases s.controllers.get id <;> rfl

theorem rejectPreparedControllerMutation_shell (id : ControllerId) :
    Procedure.Moves SameShell (rejectPreparedControllerMutation id : Step σ Unit) := by
  refine .bind (knownController_shell id) fun controller => .bind .get fun s => ?_
  split_ifs
  · exact .stop _
  · exact .pure ()

theorem registerController_shell (config : NativeControllerConfig) (algorithmsValid : Bool) :
    Procedure.Moves SameShell (registerController config algorithmsValid : Step σ Unit) :=
  .bind .get fun _ => .guard fun _ => .guard fun _ => .bind (attempt_keeps _) fun _ => .guard fun _ =>
    .bind (.update fun _ => rfl) fun _ => record_shell _

theorem prepareController_shell (id : ControllerId) (referenceUnit : Option EngineeringUnit) :
    Procedure.Moves SameShell (prepareController id referenceUnit : Step σ Unit) :=
  .bind (knownController_shell id) fun _ => .guard fun _ => .bind .get fun _ => .bind (attempt_keeps _) fun _ =>
    .bind (.update fun _ => rfl) fun _ => .bind .get fun _ => captureControllerFact_shell _ _

theorem configureControllerPid_shell (id : ControllerId) (pid : PidConfig) (expectedRevision : ℕ) (algorithmsValid : Bool) :
    Procedure.Moves SameShell (configureControllerPid id pid expectedRevision algorithmsValid : Step σ Unit) := by
  refine .bind (rejectPreparedControllerMutation_shell id) fun _ => .bind (knownController_shell id) fun controller =>
    .guard fun _ => .bind .get fun s => .guard fun _ => ?_
  cases checkedAdd controller.configRevision 1 with
  | none => exact .stop _
  | some next =>
    refine .guard fun _ => ?_
    cases s.outputs.get controller.config.output with
    | none => exact .stop _
    | some authority => exact .guard fun _ => .bind (.update fun _ => rfl) fun _ => record_shell _

theorem reconfigureController_shell (id : ControllerId) (config : NativeControllerConfig) (expectedRevision : ℕ)
    (algorithmsValid : Bool) (referenceUnit : Option EngineeringUnit) :
    Procedure.Moves SameShell (reconfigureController id config expectedRevision algorithmsValid referenceUnit : Step σ Unit) := by
  refine .bind (rejectPreparedControllerMutation_shell id) fun _ => .bind (knownController_shell id) fun current =>
    .guard fun _ => .bind .get fun s => .guard fun _ => ?_
  cases checkedAdd current.configRevision 1 with
  | none => exact .stop _
  | some next =>
    exact .bind (attempt_keeps _) fun _ => .guard fun _ => .bind (attempt_keeps _) fun _ => .bind (.update fun _ => rfl) fun _ =>
      record_shell _

theorem servicing_onward {id : ControllerId} {service : NativeController → Step σ Serviced}
    (h : ∀ controller, Procedure.Moves Onward (service controller)) : Procedure.Moves Onward (servicing id service) := by
  refine .bind (moves_onward (knownController_shell id)) fun controller => .bind (.update fun _ => SameShell.onward rfl) fun _ =>
    .bind (h controller) fun serviced => ?_
  obtain ⟨controller, result⟩ := serviced
  exact .bind (.update fun _ => SameShell.onward rfl) fun _ => attempt_keeps _

theorem activateController_shell (controller : NativeController) (now : ℕ) :
    Procedure.Moves SameShell (activateController controller now : Step σ Serviced) := by
  refine .bind .get fun s => ?_
  cases s.outputs.get controller.config.output with
  | none => exact .pure _
  | some authority =>
    dsimp only
    split_ifs
    · exact .pure _
    · refine .bind (trying_moves (settle_shell _ _)) fun result => ?_
      cases result with
      | error error => exact .pure _
      | ok result =>
        cases result with
        | lease lease => exact .pure _
        | _ => exact .stop _

theorem beginWarming_shell (loop : LoopAnswers) (now : ℕ) (expected : ControllerState) (controller : NativeController) :
    Procedure.Moves SameShell (beginWarming loop now expected controller : Step σ Serviced) := by
  refine .bind .get fun s => ?_
  cases s.startingInput controller loop now expected with
  | error error => exact .pure _
  | ok input =>
    obtain ⟨measurement, sampleAt⟩ := input
    dsimp only
    cases loop.filter measurement sampleAt with
    | none => exact .pure _
    | some filtered =>
      obtain ⟨_, ready⟩ := filtered
      dsimp only
      split_ifs
      · exact activateController_shell _ _
      · exact .pure _

theorem startOrResumeController_onward (id : ControllerId) (loop : LoopAnswers) (now : ℕ) (expected : ControllerState) :
    Procedure.Moves Onward (startOrResumeController id loop now expected : Step σ Unit) :=
  .bind (checkOutputTime_onward now) fun _ => servicing_onward fun _ => moves_onward (beginWarming_shell _ _ _ _)

theorem advanceWarming_shell (loop : LoopAnswers) (now : ℕ) (controller : NativeController) :
    Procedure.Moves SameShell (advanceWarming loop now controller : Step σ Serviced) := by
  refine .bind .get fun s => ?_
  cases s.warmingInput controller loop now with
  | error error => exact .pure _
  | ok input =>
    obtain ⟨value, sampleAt⟩ := input
    dsimp only
    by_cases hseen : (loop.lastFiltered.any fun last => decide (sampleAt ≤ last)) = true
    · rw [if_pos hseen]
      exact .pure _
    rw [if_neg hseen]
    cases loop.filter value sampleAt with
    | none => exact .pure _
    | some filtered =>
      obtain ⟨_, ready⟩ := filtered
      dsimp only
      split_ifs
      · refine .bind (activateController_shell _ _) fun activated => ?_
        obtain ⟨controller, _ | _⟩ := activated
        · exact .pure _
        · exact .pure _
      · exact .pure _

theorem deliverSimulated_shell (actuator : ActuatorId) (proposal : OutputProposal) (calculation : Option Calculation) (now : ℕ) :
    Procedure.Moves SameShell (deliverSimulated actuator proposal calculation now : Step σ Unit) := by
  refine .bind (proposeDelivery_shell _ _ _ _ _) fun _ => .bind .get fun s => .bind (requireRecordingOpen_shell _) fun _ =>
    .bind (beginSimulated_shell _ _) fun dispatch => .bind (record_shell _) fun _ => .bind (record_shell _) fun _ =>
    .bind (trying_moves (applyVirtualDispatch_shell _ _)) fun result => ?_
  cases result with
  | error error => exact .bind (onOutput_shell _ _) fun _ => .bind (record_shell _) fun _ => .stop _
  | ok _ => exact .bind (onOutput_shell _ _) fun _ => record_shell _

theorem deliver_onward (actuator : ActuatorId) (proposal : OutputProposal) (calculation : Option Calculation) (now : ℕ) :
    Procedure.Moves Onward (deliver actuator proposal calculation now : Step σ Unit) := by
  refine .bind .get fun s => ?_
  split_ifs
  · exact deliverPhysical_onward _ _ _ _
  · exact moves_onward (deliverSimulated_shell _ _ _ _)

theorem failTick_shell (controller : NativeController) (error : Error) (now : ℕ) :
    Procedure.Moves SameShell (failTick controller error now : Step σ Serviced) :=
  .bind (ignoring_moves (failController_shell _ _)) fun _ => .pure _

theorem renewAfterTick_shell (lease : OutputLease) (lifetime : ℕ) (physical : Bool) (actuator : ActuatorId) (now : ℕ) :
    Procedure.Moves SameShell (renewAfterTick lease lifetime physical actuator now : Step σ OutputLease) := by
  unfold renewAfterTick
  split_ifs
  · exact .pure _
  · exact onOutput_shell _ _

theorem tickRunning_onward (loop : LoopAnswers) (now : ℕ) (controller : NativeController) :
    Procedure.Moves Onward (tickRunning loop now controller : Step σ Serviced) := by
  refine .bind .get fun s => ?_
  rcases s.calculateControllerUpdate controller loop now with ⟨controller, error | update⟩
  · exact moves_onward (failTick_shell _ _ _)
  · obtain ⟨calculation, unit⟩ := update
    refine .bind .get fun s => .bind (trying_moves (deliver_onward _ _ _ _)) fun delivered => ?_
    cases delivered with
    | error error => exact moves_onward (failTick_shell _ _ _)
    | ok _ =>
      refine .bind (trying_moves (moves_onward (renewAfterTick_shell _ _ _ _ _))) fun renewed => ?_
      cases renewed with
      | error error => exact moves_onward (failTick_shell _ _ _)
      | ok lease => exact .pure _

theorem tickController_onward (id : ControllerId) (loop : LoopAnswers) (now : ℕ) :
    Procedure.Moves Onward (tickController id loop now : Step σ Unit) := by
  refine .bind (checkOutputTime_onward now) fun _ => servicing_onward fun controller => ?_
  unfold serviceTick
  split_ifs
  · exact .pure _
  · exact .pure _
  · exact moves_onward (advanceWarming_shell _ _ _)
  · exact tickRunning_onward _ _ _

theorem releaseOutput_shell (lease : OutputLease) (output : ActuatorId) (now : ℕ) :
    Procedure.Moves SameShell (releaseOutput lease output now : Step σ Unit) := by
  refine .bind .get fun s => ?_
  cases s.outputs.get output with
  | none => exact .stop _
  | some authority =>
    dsimp only
    split_ifs
    · exact settleSimulated_shell _ _ _ _
    · exact settleSimulated_shell _ _ _ _
    · exact .pure ()

theorem pauseRunning_shell (now : ℕ) (controller : NativeController) :
    Procedure.Moves SameShell (pauseRunning now controller : Step σ Serviced) := by
  unfold pauseRunning
  by_cases hwarm : controller.state = .warming
  · rw [if_pos hwarm]
    exact .pure _
  rw [if_neg hwarm]
  by_cases hidle : controller.state ≠ .running
  · rw [if_pos hidle]
    exact .pure _
  rw [if_neg hidle]
  cases controller.lease with
  | none => exact .pure _
  | some lease =>
    refine .bind (trying_moves (releaseOutput_shell _ _ _)) fun result => .bind .get fun s => ?_
    split_ifs
    · exact .pure _
    · exact .pure _

theorem pauseController_onward (id : ControllerId) (now : ℕ) : Procedure.Moves Onward (pauseController id now : Step σ Unit) :=
  .bind (checkOutputTime_onward now) fun _ => servicing_onward fun _ => moves_onward (pauseRunning_shell _ _)

theorem pauseController_timely (id : ControllerId) (now : ℕ) :
    Procedure.Moves (Timely now) (pauseController id now : Step σ Unit) := by
  have hsame : ∀ (s s' : Runtime σ), SameShell s s' → Timely now s s' := fun _ _ => SameShell.timely now
  refine .bind (checkOutputTime_timely now) fun _ => Procedure.Moves.mono ?_ hsame
  refine .bind (knownController_shell id) fun controller => .bind (.update fun _ => rfl) fun _ =>
    .bind (pauseRunning_shell now controller) fun serviced => ?_
  obtain ⟨controller, result⟩ := serviced
  exact .bind (.update fun _ => rfl) fun _ => attempt_keeps _

theorem resetFailedController_onward (id : ControllerId) (now : ℕ) :
    Procedure.Moves Onward (resetFailedController id now : Step σ Unit) := by
  refine .bind (checkOutputTime_onward now) fun _ => .bind (moves_onward (knownController_shell id)) fun controller =>
    moves_onward ?_
  refine .guard fun _ => .bind .get fun s => ?_
  cases s.outputs.get controller.config.output with
  | none =>
    dsimp only
    split_ifs
    · exact .stop _
    · exact .stop _
  | some authority => exact .guard fun _ => .update fun _ => rfl

theorem failDependent_shell (id : ControllerId) (now : ℕ) : Procedure.Moves SameShell (failDependent id now : Step σ Unit) := by
  refine .bind (knownController_shell id) fun controller => ?_
  by_cases hdead : controller.state.live = false
  · rw [if_pos hdead]
    exact .pure ()
  rw [if_neg hdead]
  refine .bind (.update fun _ => rfl) fun _ => ?_
  by_cases hwarm : controller.state ≠ .warming
  · simp only [if_pos hwarm]
    exact .bind (ignoring_moves (failController_shell _ _)) fun _ => .update fun _ => rfl
  · simp only [if_neg hwarm]
    exact .update fun _ => rfl

/-! ### Output commands -/

theorem interruptWarming_shell (actuator : ActuatorId) (command : OutputCommand) :
    Procedure.Moves SameShell (interruptWarming actuator command : Step σ Unit) := by
  refine .bind .get fun s => ?_
  split_ifs
  · cases command with
    | requestSafe => exact .update fun _ => rfl
    | trip => exact .update fun _ => rfl
    | acquire owner lifetime => exact .stop _
    | bindProfile profile => exact .stop _
    | _ => exact .pure ()
  · exact .pure ()

theorem allocateCommandAttempt_shell (command : OutputCommand) :
    Procedure.Moves SameShell (allocateCommandAttempt command : Step σ (Option ℕ)) := by
  unfold allocateCommandAttempt
  cases command with
  | propose proposal => exact .bind allocateOutputAttempt_shell fun _ => .pure _
  | requestSafe => exact allocateSafeOutputAttempt_shell
  | release lease => exact allocateSafeOutputAttempt_shell
  | trip => exact allocateSafeOutputAttempt_shell
  | _ => exact .pure _

theorem noteCommand_shell (actuator : ActuatorId) (before : OutputAuthority) (command : OutputCommand) (proposed : Option ℕ)
    (result : OutputResult) (now : ℕ) :
    Procedure.Moves SameShell (noteCommand actuator before command proposed result now : Step σ Unit) := by
  intro s
  cases result with
  | dispatched dispatch =>
    unfold noteCommand
    dsimp only
    simp only [noteSend, record]
    cases proposed with
    | none =>
      dsimp only
      cases hattempt : s.outputAttempts.get actuator with
      | none =>
        simp only [Procedure.run_get_bind, Procedure.run_modify_bind, hattempt]
        exact applyVirtualDispatch_shell actuator dispatch.value _
      | some n =>
        simp only [Procedure.run_get_bind, Procedure.run_modify_bind, hattempt]
        exact applyVirtualDispatch_shell actuator dispatch.value _
    | some n =>
      simp only [Procedure.run_get_bind, Procedure.run_modify_bind, OrderedMap.get_insert_self]
      exact applyVirtualDispatch_shell actuator dispatch.value _
  | _ => cases proposed <;> rfl

theorem commandOutput_shell (actuator : ActuatorId) (command : OutputCommand) (now : ℕ) :
    Procedure.Moves SameShell (commandOutput actuator command now : Step σ OutputResult) := by
  refine .bind .get fun s => .bind (attempt_keeps _) fun _ => .bind (allocateCommandAttempt_shell command) fun proposed =>
    .bind .get fun s => ?_
  cases s.outputs.get actuator with
  | none => exact .stop _
  | some before =>
    dsimp only
    rcases before.command command now with ⟨error | result, authority⟩
    · exact .bind (.update fun _ => rfl) fun _ => .bind (.update fun s => s.syncRecordingOutputContext_shell actuator) fun _ =>
        .bind (record_shell _) fun _ => .stop _
    · exact .bind (.update fun _ => rfl) fun _ => .bind (.update fun s => s.syncRecordingOutputContext_shell actuator) fun _ =>
        .bind (noteCommand_shell _ _ _ _ _ _) fun _ => .pure _

theorem output_onward (actuator : ActuatorId) (command : OutputCommand) (now : ℕ) :
    Procedure.Moves Onward (output actuator command now : Step σ OutputResult) := by
  have hrest : Procedure.Moves Onward (do
      if !(← get).outputs.contains actuator then reject (.output .unknownActuator)
      checkOutputTime now
      interruptWarming actuator command
      commandOutput actuator command now : Step σ OutputResult) :=
    .bind .get fun _ => .guard fun _ => .bind (checkOutputTime_onward now) fun _ =>
      .bind (moves_onward (interruptWarming_shell _ _)) fun _ => moves_onward (commandOutput_shell _ _ _)
  refine .bind (moves_onward (serviced_shell now)) fun _ => .bind .get fun s => ?_
  dsimp only
  split_ifs
  · exact .bind (moves_onward (requireRecordingOpen_shell now)) fun _ => hrest
  · exact hrest

theorem manualWrite_onward (actuator : ActuatorId) (snapshot : OutputSnapshot) (value : Value) (ttl now : ℕ) :
    Procedure.Moves Onward (manualWrite actuator snapshot value ttl now : Step σ Unit) := by
  refine .guard fun _ => .bind (moves_onward (requireRecordingOpen_shell now)) fun _ => .bind .get fun s => ?_
  cases s.descriptor actuator.instrument with
  | none => exact .stop _
  | some descriptor =>
    simp only
    cases descriptor.parameter actuator.parameter with
    | none => exact .stop _
    | some parameter =>
      cases snapshot.lease with
      | none => exact .stop _
      | some lease =>
        refine .bind (trying_moves (deliver_onward _ _ _ _)) fun result => ?_
        cases result with
        | ok _ => exact .pure ()
        | error error =>
          refine .bind .get fun s => ?_
          split_ifs
          · exact .bind (moves_onward (changeOutput_shell _ _)) fun _ => .bind (output_onward _ _ _) fun _ => .stop _
          · exact .stop _

theorem manualOutput_onward (actuator : ActuatorId) (owner expectedInstance expectedEpoch : ℕ) (command : ManualOutputCommand)
    (now : ℕ) :
    Procedure.Moves Onward (manualOutput actuator owner expectedInstance expectedEpoch command now : Step σ Unit) := by
  refine .bind .get fun s => .guard fun _ => .bind (output_onward _ _ _) fun _ => .bind .get fun s => ?_
  cases s.outputs.get actuator with
  | none => exact .stop _
  | some authority =>
    refine .guard fun _ => .guard fun _ => ?_
    cases command with
    | write value ttl => exact manualWrite_onward _ _ _ _ _
    | _ => exact .bind (attempt_keeps _) fun _ => .bind (output_onward _ _ _) fun _ => .pure _

/-! ### Registration -/

theorem installAuthorities_shell (authorities : List (ActuatorId × OutputAuthority)) :
    Procedure.Moves SameShell (installAuthorities authorities : Step σ PUnit) :=
  .update fun s => foldl_shell syncRecordingOutputContext_shell _ { s with outputs := s.outputs.extend authorities }

/-- An instrument with this identity may be registered. -/
structure Free (c : Shell) (id : InstrumentId) : Prop where
  natives : id ∉ c.natives
  managed : ∀ item ∈ c.managed, item.descriptor.id ≠ id
  limit : c.natives.length < maxInstruments

theorem requireFreeInstrument_ok {id : InstrumentId} {u : Unit} (h : (requireFreeInstrument id).run s = (.ok u, s')) :
    Free s.shell id := by
  unfold requireFreeInstrument at h
  rw [Procedure.run_get_bind] at h
  by_cases hknown : s.containsInstrument id = true
  · rw [if_pos hknown] at h
    cases h
  · rw [if_neg hknown] at h
    have hroom : ¬ s.instrumentCount ≥ maxInstruments := fun hfull => by
      simp only [if_pos hfull] at h
      cases h
    rw [containsInstrument_eq] at hknown
    have hlength := s.natives_length_le
    exact ⟨fun hin => hknown (.inl hin), fun item hitem heq => hknown (.inr ⟨item, hitem, heq⟩), by omega⟩

/-- What follows an accepted check of an identity finds it free. -/
theorem free_onward {α : Type} {id : InstrumentId} {f : Unit → Step σ α} (s : Runtime σ)
    (h : Free s.shell id → Onward s ((f ()).run s).2) : Onward s ((requireFreeInstrument id >>= f).run s).2 := by
  refine Procedure.Moves.bind_at ?_ fun u s₁ hrun => ?_
  · rw [requireFreeInstrument_run]
    exact refl_of Onward s
  · obtain rfl : s₁ = s := by rw [← requireFreeInstrument_run id s, hrun]
    exact h (requireFreeInstrument_ok hrun)

/-- From one state: a step that leaves the shell alone, and then whatever follows. -/
theorem same_bind {α β : Type} {x : Step σ α} {f : α → Step σ β} (s : Runtime σ) (hx : Procedure.Moves SameShell x)
    (hf : ∀ a s₁, s₁.shell = s.shell → Onward s₁ ((f a).run s₁).2) : Onward s ((x >>= f).run s).2 := by
  refine Procedure.Moves.bind_at (hx s).onward fun a s₁ hrun => hf a s₁ ?_
  have hsame := hx s
  rwa [hrun] at hsame

theorem keys_insert_perm {κ α : Type} [LinearOrder κ] {m : OrderedMap κ α} {k : κ} (a : α) (h : k ∉ m.keys) :
    (m.insert k a).keys.Perm (k :: m.keys) := by
  have hnone : m.get k = none := by
    rw [OrderedMap.mem_keys] at h
    simpa using h
  exact (m.insert_perm_of_none a hnone).map Prod.fst

theorem perm_between (before after : List InstrumentId) {ids ids' : List InstrumentId} {id : InstrumentId} (h : ids'.Perm (id :: ids)) :
    (before ++ (ids' ++ after)).Perm (id :: (before ++ (ids ++ after))) := by
  refine ((h.append_right after).append_left before).trans ?_
  exact List.perm_middle

theorem registeredVirtual_onward {id : InstrumentId} (h : Free s.shell id) (instrument : NativeInstrument) :
    Onward s { s with virtualInstruments := s.virtualInstruments.insert id instrument } := by
  have hnew : id ∉ s.virtualInstruments.keys := fun hin => h.natives (by simp [Shell.natives, shell, hin])
  refine Shell.onward_registered ?_ h.natives h.managed h.limit Shell.Coherent.simpleLimit Shell.Coherent.prepared
    (fun other _ hother => hother) ⟨rfl, rfl, rfl⟩
  simp only [Shell.natives, shell, List.append_assoc]
  exact perm_between [] _ (keys_insert_perm instrument hnew)

theorem registeredPlant_onward {id : InstrumentId} (h : Free s.shell id) (plant : ThermalPlant) :
    Onward s { s with thermalPlants := s.thermalPlants.insert id plant } := by
  have hnew : id ∉ s.thermalPlants.keys := fun hin => h.natives (by simp [Shell.natives, shell, hin])
  refine Shell.onward_registered ?_ h.natives h.managed h.limit Shell.Coherent.simpleLimit Shell.Coherent.prepared
    (fun other _ hother => hother) ⟨rfl, rfl, rfl⟩
  have hperm := perm_between (s.virtualInstruments.keys ++ s.metakonInstruments.keys ++ s.simpleDeviceInstruments.keys) []
    (keys_insert_perm plant hnew)
  simpa only [Shell.natives, shell, List.append_nil] using hperm

theorem registeredMetakon_onward {id : InstrumentId} (h : Free s.shell id) (instrument : MetakonInstrument) :
    Onward s { s with metakonInstruments := s.metakonInstruments.insert id instrument } := by
  have hnew : id ∉ s.metakonInstruments.keys := fun hin => h.natives (by simp [Shell.natives, shell, hin])
  refine Shell.onward_registered ?_ h.natives h.managed h.limit Shell.Coherent.simpleLimit Shell.Coherent.prepared
    (fun other _ hother => hother) ⟨rfl, rfl, rfl⟩
  simp only [Shell.natives, shell, List.append_assoc]
  exact perm_between _ _ (keys_insert_perm instrument hnew)

theorem registeredSimple_onward {id : InstrumentId} (h : Free s.shell id) (instrument : SimpleDeviceInstrument) (prepared : Bool)
    (hroom : s.shell.simples.length < maxSimpleInstruments) :
    Onward s { s with
      simpleDeviceInstruments := s.simpleDeviceInstruments.insert id instrument
      preparedSimpleDevices := if prepared then id :: s.preparedSimpleDevices else s.preparedSimpleDevices } := by
  have hnew : id ∉ s.simpleDeviceInstruments.keys := fun hin => h.natives (by simp [Shell.natives, shell, hin])
  have hperm := keys_insert_perm instrument hnew
  refine Shell.onward_registered ?_ h.natives h.managed h.limit (fun _ => ?_) (fun hc other hother => ?_)
    (fun other hne hother => ?_) ⟨rfl, rfl, rfl⟩
  · have hwhole := perm_between (s.virtualInstruments.keys ++ s.metakonInstruments.keys) s.thermalPlants.keys hperm
    simpa only [Shell.natives, shell, List.append_assoc] using hwhole
  · have hlength := hperm.length_eq
    simp only [List.length_cons] at hlength
    show (s.simpleDeviceInstruments.insert id instrument).keys.length ≤ _
    have hroom : s.simpleDeviceInstruments.keys.length < maxSimpleInstruments := hroom
    omega
  · refine hperm.mem_iff.2 ?_
    have hother : other ∈ if prepared then id :: s.preparedSimpleDevices else s.preparedSimpleDevices := hother
    split_ifs at hother
    · rcases List.mem_cons.1 hother with rfl | hother
      · exact List.mem_cons_self
      · exact List.mem_cons_of_mem _ (hc.prepared other hother)
    · exact List.mem_cons_of_mem _ (hc.prepared other hother)
  · have hother : other ∈ if prepared then id :: s.preparedSimpleDevices else s.preparedSimpleDevices := hother
    split_ifs at hother
    · exact (List.mem_cons.1 hother).resolve_left hne
    · exact hother

theorem registerVirtual_onward (instrument : NativeInstrument) (heater : ParameterDescriptor) :
    Procedure.Moves Onward (registerVirtual instrument heater : Step σ Unit) := by
  intro s
  refine free_onward s fun hfree => ?_
  refine Procedure.Moves.guard_at fun _ => same_bind s (newAuthority_shell _ _ _) fun authority s₁ hshell => ?_
  exact Procedure.Moves.bind_from (registeredVirtual_onward (hshell ▸ hfree) instrument) fun _ => moves_onward (installAuthorities_shell _)

theorem registerThermalPlant_onward (plant : ThermalPlant) :
    Procedure.Moves Onward (registerThermalPlant plant : Step σ Unit) := by
  intro s
  refine free_onward s fun hfree => ?_
  cases plant.descriptor.parameter heaterPower with
  | none => exact refl_of Onward s
  | some heater =>
    refine same_bind s (newAuthority_shell _ _ _) fun authority s₁ hshell => ?_
    exact Procedure.Moves.bind_from (registeredPlant_onward (hshell ▸ hfree) plant) fun _ => moves_onward (installAuthorities_shell _)

theorem registerMetakon_onward (config : MetakonInstrumentConfig) :
    Procedure.Moves Onward (registerMetakon config : Step σ Unit) := by
  intro s
  refine free_onward s fun hfree => ?_
  refine same_bind s (attempt_keeps _) fun instrument s₁ h₁ => same_bind s₁ (newAuthorities_shell _ _) fun authorities s₂ h₂ => ?_
  exact Procedure.Moves.bind_from (registeredMetakon_onward ((h₂.trans h₁) ▸ hfree) instrument) fun _ =>
    moves_onward (installAuthorities_shell _)

theorem registerSimpleDevice_onward (config : SimpleDeviceInstrumentConfig) (prepared : Bool) :
    Procedure.Moves Onward (registerSimpleDevice config prepared : Step σ Unit) := by
  intro s
  refine free_onward s fun hfree => ?_
  rw [Procedure.run_get_bind]
  refine Procedure.Moves.guard_at fun hroom => Procedure.Moves.guard_at fun _ => ?_
  refine same_bind s (attempt_keeps _) fun instrument s₁ h₁ => same_bind s₁ (newAuthorities_shell _ _) fun authorities s₂ h₂ => ?_
  have hshell : s₂.shell = s.shell := h₂.trans h₁
  refine Procedure.Moves.bind_from (registeredSimple_onward (hshell ▸ hfree) instrument prepared ?_) fun _ =>
    moves_onward (installAuthorities_shell _)
  rw [hshell]
  have hsize : s.shell.simples.length = s.simpleDeviceInstruments.size := by
    simp [shell, OrderedMap.keys, OrderedMap.size]
  omega

/-! ### Prepared devices -/

theorem publishPreparedSimpleDevices_onward (instruments : List InstrumentId) :
    Procedure.Moves Onward (publishPreparedSimpleDevices instruments : Step σ Unit) :=
  .bind .get fun _ => .guard fun _ => .update fun s => s.shell.onward_published _

theorem cancelPreparedOutput_shell (key : TransactionKey) (pending : PendingOutputWrite) :
    Procedure.Moves SameShell (cancelPreparedOutput key pending : Step σ Unit) := by
  refine .bind .get fun s => ?_
  cases s.resources.get key.resource with
  | none => exact .stop _
  | some r =>
    dsimp only
    rcases r.executor.cancelQueuedOutput key.transaction with ⟨intent, executor⟩
    exact .bind (.update fun _ => rfl) fun _ => .guard fun _ => .bind (onOutput_shell _ _) fun _ => .update fun _ => rfl

theorem dropPreparedController_shell (id : ControllerId) :
    Procedure.Moves SameShell (dropPreparedController id : Step σ Unit) := by
  refine .bind .get fun s => ?_
  cases s.controllers.get id with
  | none => exact .stop _
  | some controller => exact .guard fun _ => .update fun _ => rfl

theorem keys_remove {κ α : Type} [LinearOrder κ] (m : OrderedMap κ α) (k : κ) :
    (m.remove k).keys = m.keys.filter fun k' => decide (k' ≠ k) := by
  simp only [OrderedMap.remove, OrderedMap.retain, OrderedMap.keys, List.filter_map]
  rfl

theorem dropPreparedInstrument_shell (s : Runtime σ) (id : InstrumentId) :
    (s.dropPreparedInstrument id).shell = { s.shell with
      prepared := s.preparedSimpleDevices.filter fun other => decide (other ≠ id)
      simples := s.simpleDeviceInstruments.keys.filter fun other => decide (other ≠ id) } := by
  unfold dropPreparedInstrument
  dsimp only
  cases hget : s.simpleDeviceInstruments.get id with
  | none =>
    have habsent : s.simpleDeviceInstruments.keys.filter (fun other => decide (other ≠ id)) = s.simpleDeviceInstruments.keys := by
      refine List.filter_eq_self.2 fun other hother => ?_
      rw [decide_eq_true_eq]
      rintro rfl
      rw [OrderedMap.mem_keys, hget] at hother
      cases hother
    rw [habsent]
    rfl
  | some device =>
    have hremove : ∀ (s : Runtime σ) (parameter : ParameterDescriptor), shell { s with
        outputs := s.outputs.remove { instrument := id, parameter := parameter.id }
        outputAttempts := s.outputAttempts.remove { instrument := id, parameter := parameter.id }
        outputDispatchAttempts := s.outputDispatchAttempts.remove { instrument := id, parameter := parameter.id } } = s.shell :=
      fun _ _ => rfl
    refine (foldl_shell hremove _ _).trans ?_
    simp only [shell, keys_remove]

theorem dropPreparedInstruments_shell (ids : List InstrumentId) (s : Runtime σ) :
    (ids.foldl (fun s id => s.dropPreparedInstrument id) s).shell = { s.shell with
      prepared := s.preparedSimpleDevices.filter fun id => decide (id ∉ ids)
      simples := s.simpleDeviceInstruments.keys.filter fun id => decide (id ∉ ids) } := by
  induction ids generalizing s with
  | nil => simp [shell]
  | cons id ids ih =>
    have hdrop := s.dropPreparedInstrument_shell id
    have hprepared : (s.dropPreparedInstrument id).preparedSimpleDevices = _ := congrArg Shell.prepared hdrop
    have hsimples : (s.dropPreparedInstrument id).simpleDeviceInstruments.keys = _ := congrArg Shell.simples hdrop
    rw [List.foldl_cons, ih, hdrop, hprepared, hsimples]
    simp only [List.filter_filter, List.mem_cons, not_or, Bool.decide_and, Bool.and_comm]

/-- A loop of checks that ended passed them all, and changed nothing. -/
theorem checked {ids : List InstrumentId} {f : InstrumentId → Step σ Unit} {P : InstrumentId → Prop} {u : Unit}
    (hf : ∀ id s s' u, (f id).run s = (.ok u, s') → P id ∧ s' = s) (s s' : Runtime σ)
    (h : (Procedure.forEach ids f).run s = (.ok u, s')) : (∀ id ∈ ids, P id) ∧ s' = s := by
  induction ids generalizing s with
  | nil =>
    cases h
    exact ⟨by simp, rfl⟩
  | cons id ids ih =>
    rw [Procedure.forEach_cons] at h
    obtain ⟨v, s₁, hid, hrest⟩ := Procedure.bind_ok.1 h
    obtain ⟨hP, rfl⟩ := hf id s s₁ v hid
    obtain ⟨hall, hsame⟩ := ih s₁ hrest
    exact ⟨by simpa using ⟨hP, hall⟩, hsame⟩

theorem discardPreparedSimpleDevices_onward (instruments : List InstrumentId) :
    Procedure.Moves Onward (discardPreparedSimpleDevices instruments : Step σ Unit) := by
  refine .guard fun _ s => ?_
  rw [Procedure.run_get_bind]
  have hsame : Procedure.Moves SameShell (Procedure.forEach instruments fun id =>
      if !s.instrumentIsPrepared id then
        reject (.invalidConfiguration "prepared simple-device instrument missing")
      else if s.pendingSimpleReads.values.any fun pending => pending.instrument == id then
        reject (.invalidConfiguration "prepared simple-device has pending physical work")
      else pure () : Step σ Unit) := by
    refine .forEach fun id _ => ?_
    split_ifs
    · exact .stop _
    · exact .stop _
    · exact .pure ()
  refine Procedure.Moves.bind_at (hsame s).onward fun u s₁ hrun => ?_
  obtain ⟨hall, rfl⟩ := checked (P := fun id => s.instrumentIsPrepared id = true) (fun id s₂ s₃ u hid => by
    split_ifs at hid with hprepared hpending
    · cases hid
    · cases hid
    · obtain ⟨-, rfl⟩ := Prod.mk.inj hid
      exact ⟨by simpa using hprepared, rfl⟩) s s₁ hrun
  refine same_bind s₁ (.forEach fun entry _ => ?_) fun _ s₂ h₂ => ?_
  · exact cancelPreparedOutput_shell entry.1 entry.2
  refine same_bind s₂ (.forEach fun id _ => dropPreparedController_shell id) fun _ s₃ h₃ => ?_
  have hstill : s₃.shell = s₁.shell := h₃.trans h₂
  show s₃.shell.Onward (instruments.foldl (fun s id => s.dropPreparedInstrument id) s₃).shell
  rw [dropPreparedInstruments_shell]
  refine Shell.onward_discarded _ fun id hid => ?_
  rw [hstill]
  have hprepared : s₁.instrumentIsPrepared id = true := hall id hid
  exact List.contains_iff_mem.1 hprepared

/-! ### Reads and rebinds -/

theorem enqueueReadOn_shell (fence : BindingFence) (request : List UInt8) (expectedResponse now deadline timeout : ℕ) :
    Procedure.Moves SameShell (enqueueReadOn fence request expectedResponse now deadline timeout : Step σ TransactionKey) := by
  refine .bind .get fun s => ?_
  cases s.resources.get fence.resource with
  | none => exact .stop _
  | some r =>
    dsimp only
    rcases r.executor.enqueueRead request expectedResponse now deadline timeout true fence.bindingGeneration
      fence.mappingRevision with ⟨_ | transaction, executor⟩
    · exact .bind (.update fun _ => rfl) fun _ => .stop _
    · exact .bind (.update fun _ => rfl) fun _ => .pure _

theorem queueMetakonRead_onward (instrument : InstrumentId) (parameter : ParameterId) (now queueTtl timeout : ℕ) :
    Procedure.Moves Onward (queueMetakonRead instrument parameter now queueTtl timeout : Step σ ℕ) := by
  refine .bind (checkTransportTime_onward now) fun _ => moves_onward (.bind .get fun s => ?_)
  cases s.metakonInstruments.get instrument with
  | none => exact .stop _
  | some inst =>
    dsimp only
    cases inst.definition.parameterDefinition parameter with
    | none => exact .stop _
    | some definition =>
      refine .guard fun _ => ?_
      cases durationAdd now queueTtl with
      | none => exact .stop _
      | some deadline =>
        cases Metakon.encodeRead (expectedRead inst.binding definition.operation).address with
        | error error => exact .stop _
        | ok request => exact .bind (enqueueReadOn_shell _ _ _ _ _ _) fun _ => .bind (.update fun _ => rfl) fun _ => .pure _

theorem queueSimpleDeviceRead_onward (instrument : InstrumentId) (parameter : ParameterId) (now queueTtl timeout : ℕ) :
    Procedure.Moves Onward (queueSimpleDeviceRead instrument parameter now queueTtl timeout : Step σ ℕ) := by
  refine .bind (checkTransportTime_onward now) fun _ => moves_onward (.bind .get fun s => .guard fun _ => ?_)
  cases s.simpleDeviceInstruments.get instrument with
  | none => exact .stop _
  | some inst =>
    dsimp only
    cases inst.plans.get parameter with
    | none => exact .stop _
    | some plan =>
      cases durationAdd now queueTtl with
      | none => exact .stop _
      | some deadline =>
        exact .bind (enqueueReadOn_shell _ _ _ _ _ _) fun _ => .bind (.update fun _ => rfl) fun _ => .pure _

/-- The last steps of a rebind. -/
theorem rebound_shell (f : FactOutbox → FactOutbox) (result : Except Abort Unit) (id : InstrumentId) (resource : ResourceId)
    (replacements : List (ActuatorId × OutputAuthority)) : Procedure.Moves SameShell (do
      Procedure.lift result
      record f
      completeRebind id resource replacements : Step σ PUnit) :=
  .bind (.lift _) fun _ => .bind (record_shell _) fun _ => .update fun _ => rfl

theorem rebindMetakon_onward (id : InstrumentId) (binding : MetakonBinding) (now : ℕ) :
    Procedure.Moves Onward (rebindMetakon id binding now : Step σ Unit) := by
  refine .bind .get fun _ => .guard fun _ => .bind (checkOutputTime_onward now) fun _ s => ?_
  rw [Procedure.run_get_bind]
  cases hget : s.metakonInstruments.get id with
  | none => exact refl_of Onward s
  | some inst =>
    refine Procedure.Moves.guard_at fun _ => Procedure.Moves.guard_at fun _ =>
      same_bind s (newAuthorities_shell _ _) fun replacements s₁ hshell => ?_
    rcases invalidateSignals now inst.descriptor.signals inst.signals with ⟨result, signals⟩
    refine Procedure.Moves.bind_from (SameShell.onward ?_) fun _ => moves_onward (rebound_shell _ _ _ _ _)
    have hkeys : s₁.metakonInstruments.keys = s.metakonInstruments.keys := congrArg Shell.metakons hshell
    have hmem : id ∈ s₁.metakonInstruments.keys := by
      rw [hkeys, OrderedMap.mem_keys, hget]
      rfl
    simp only [SameShell, Procedure.run_modify, shell, OrderedMap.keys_insert_of_mem _ hmem]

/-- The clock that a rebind checks leaves the simple devices registered. -/
theorem rebindClock_shell (readOnly : Prop) [Decidable readOnly] (now : ℕ) (s : Runtime σ) :
    Onward s ((if readOnly then checkTransportTime now else checkOutputTime now : Step σ Unit).run s).2 ∧
      ((if readOnly then checkTransportTime now else checkOutputTime now : Step σ Unit).run s).2.shell.simples = s.shell.simples := by
  split_ifs
  · obtain ⟨time, -, hshell⟩ := checkTransportTime_shell now s
    exact ⟨checkTransportTime_onward now s, by rw [hshell]⟩
  · obtain ⟨time, -, hshell⟩ := checkOutputTime_shell now s
    exact ⟨checkOutputTime_onward now s, by rw [hshell]⟩

theorem rebindSimpleDevice_onward (id : InstrumentId) (binding : SimpleDeviceBinding) (now : ℕ) :
    Procedure.Moves Onward (rebindSimpleDevice id binding now : Step σ Unit) := by
  intro s
  unfold rebindSimpleDevice
  rw [Procedure.run_get_bind]
  refine Procedure.Moves.guard_at fun _ => ?_
  cases hget : s.simpleDeviceInstruments.get id with
  | none => exact refl_of Onward s
  | some inst =>
    have hclock := rebindClock_shell (inst.writes.size = 0) now s
    dsimp only
    by_cases hreadOnly : inst.writes.size = 0
    on_goal 1 => simp only [if_pos hreadOnly] at hclock ⊢
    on_goal 2 => simp only [if_neg hreadOnly] at hclock ⊢
    all_goals
      refine Procedure.Moves.bind_at hclock.1 fun u s₁ hrun => ?_
      have hsimples : s₁.shell.simples = s.shell.simples := by rw [← hclock.2, hrun]
      rw [Procedure.run_get_bind]
      refine Procedure.Moves.guard_at fun _ => Procedure.Moves.guard_at fun _ => Procedure.Moves.guard_at fun _ =>
        same_bind s₁ (newAuthorities_shell _ _) fun replacements s₂ hshell => ?_
      rcases invalidateSignals now inst.descriptor.signals inst.signals with ⟨result, signals⟩
      refine Procedure.Moves.bind_from (SameShell.onward ?_) fun _ => moves_onward (rebound_shell _ _ _ _ _)
      have hkeys : s₂.simpleDeviceInstruments.keys = s.simpleDeviceInstruments.keys := (congrArg Shell.simples hshell).trans hsimples
      have hmem : id ∈ s₂.simpleDeviceInstruments.keys := by
        rw [hkeys, OrderedMap.mem_keys, hget]
        rfl
      simp only [SameShell, Procedure.run_modify, shell, OrderedMap.keys_insert_of_mem _ hmem]

theorem reconfigureMetakon_onward (config : MetakonInstrumentConfig) (expectedGeneration expectedRevision now : ℕ) :
    Procedure.Moves Onward (reconfigureMetakon config expectedGeneration expectedRevision now : Step σ Unit) := by
  refine .bind (checkOutputTime_onward now) fun _ s => ?_
  rw [Procedure.run_get_bind]
  cases hget : s.metakonInstruments.get config.definition.id with
  | none => exact refl_of Onward s
  | some current =>
    refine Procedure.Moves.guard_at fun _ => Procedure.Moves.guard_at fun _ => same_bind s (attempt_keeps _)
      fun candidate s₁ h₁ => same_bind s₁ (newAuthorities_shell _ _) fun replacements s₂ h₂ => ?_
    rcases invalidateSignals now candidate.descriptor.signals candidate.signals with ⟨result, signals⟩
    refine same_bind s₂ (.lift _) fun _ s₃ h₃ => ?_
    have hkeys : s₃.metakonInstruments.keys = s.metakonInstruments.keys := congrArg Shell.metakons (h₃.trans (h₂.trans h₁))
    have hmem : config.definition.id ∈ s₃.metakonInstruments.keys := by
      rw [hkeys, OrderedMap.mem_keys, hget]
      rfl
    have hstored : SameShell s₃ { s₃ with
        pendingReads := s₃.pendingReads.retain fun _ pending => decide (pending.instrument ≠ config.definition.id)
        metakonInstruments := s₃.metakonInstruments.insert config.definition.id { candidate with signals := signals } } := by
      simp only [SameShell, shell, OrderedMap.keys_insert_of_mem _ hmem]
    refine Procedure.Moves.bind_from hstored.onward fun _ => moves_onward (.bind (.update fun _ => rfl) fun _ => record_shell _)

theorem renameInstrument_shell (id : InstrumentId) (name : String) :
    Procedure.Moves SameShell (renameInstrument id name : Step σ Unit) := by
  refine .bind (attempt_keeps _) fun _ s => ?_
  rw [Procedure.run_get_bind]
  dsimp only
  cases hvirtual : s.virtualInstruments.get id with
  | some i => simp only [SameShell, Procedure.run_set, shell, keys_replace hvirtual]
  | none =>
    cases hmetakon : s.metakonInstruments.get id with
    | some i => simp only [SameShell, Procedure.run_set, shell, keys_replace hmetakon]
    | none =>
      cases hplant : s.thermalPlants.get id with
      | some i => simp only [SameShell, Procedure.run_set, shell, keys_replace hplant]
      | none =>
        cases hsimple : s.simpleDeviceInstruments.get id with
        | some i => simp only [SameShell, Procedure.run_set, shell, keys_replace hsimple]
        | none => rfl

/-! ### Transports and recording -/

theorem registerTransport_shell (resource : ResourceId) (adapter : σ) (recoveryTimeout : ℕ) :
    Procedure.Moves SameShell (registerTransport resource adapter recoveryTimeout : Step σ Unit) := by
  refine .bind .get fun _ => .guard fun _ => .guard fun _ => ?_
  cases ResourceExecutor.withRecoveryTimeout resource recoveryTimeout with
  | error error => exact .stop _
  | ok executor => exact .update fun _ => rfl

theorem replaceTransport_onward (A : ByteTransport σ) (resource : ResourceId) (adapter : σ) (recoveryTimeout : ℕ) :
    Procedure.Moves Onward (replaceTransport A resource adapter recoveryTimeout : Step σ Unit) := by
  refine .bind .get fun s => ?_
  cases s.resources.get resource with
  | none => exact .stop _
  | some r =>
    dsimp only
    cases checkedAdd r.executor.generation 1 with
    | none => exact .stop _
    | some generation =>
      refine .bind (shutdownTransport_onward A _ _) fun status => .guard fun _ => ?_
      cases ResourceExecutor.replacement resource recoveryTimeout generation with
      | error error => exact .stop _
      | ok executor => exact .update fun _ => SameShell.onward rfl

theorem creditSubmission_shell (submittedAt now : ℕ) : Procedure.Moves SameShell (creditSubmission submittedAt now : Step σ Unit) := by
  -- unfolded as a function, so that the sum with the constant age is never evaluated
  have hdef : @creditSubmission σ = @creditSubmission σ := rfl
  conv at hdef =>
    rhs
    delta creditSubmission
  rw [hdef]
  beta_reduce
  cases durationAdd submittedAt requiredProgressAge with
  | none => exact .stop _
  | some deadline =>
    by_cases hlate : now ≥ deadline
    · simp only [if_pos hlate]
      exact .bind (.update fun s => s.recordingFailure_shell now) fun _ => .bind (.stop _) fun _ => .update fun _ => rfl
    · simp only [if_neg hlate]
      exact .update fun _ => rfl

theorem confirmRecordingStart_shell (submittedAt now : ℕ) :
    Procedure.Moves SameShell (confirmRecordingStart submittedAt now : Step σ Unit) :=
  .bind .get fun _ => .guard fun _ => creditSubmission_shell _ _

theorem confirmRecordingProgress_shell (submittedAt now : ℕ) :
    Procedure.Moves SameShell (confirmRecordingProgress submittedAt now : Step σ Unit) :=
  .bind (serviced_shell now) fun _ => .bind .get fun _ => .guard fun _ => creditSubmission_shell _ _

theorem capturing_onward {command : Step σ Unit} (id : ControllerId) (now : ℕ) (h : Procedure.Moves Onward command) :
    Procedure.Moves Onward (capturing id now command) :=
  .bind (moves_onward (rejectPreparedControllerMutation_shell id)) fun _ => .bind h fun _ =>
    moves_onward (captureControllerFact_shell id now)

theorem tick_onward (id : ControllerId) (loop : LoopAnswers) (now : ℕ) : Procedure.Moves Onward (tick id loop now : Step σ Unit) :=
  .bind (moves_onward (rejectPreparedControllerMutation_shell id)) fun _ =>
    .bind (moves_onward (requireRecordingOpen_shell now)) fun _ => .bind (trying_moves (tickController_onward id loop now))
      fun _ => .bind (moves_onward (captureControllerFact_shell id now)) fun _ => attempt_keeps _

/-! ### Every call -/

/-- A call other than the work on native instruments, which stands for the commands of other parts of the owner. -/
theorem perform_onward (A : ByteTransport σ) (op : Op σ) (h : ∀ work, op ≠ .nativeWork work) :
    Procedure.Moves Onward (perform A op) := by
  have hsame : ∀ {x : Step σ Unit}, Procedure.Moves SameShell x → Procedure.Moves Onward x := moves_onward
  cases op with
  | output actuator command now => exact discarding_moves (output_onward _ _ _)
  | manualOutput actuator owner expectedInstance expectedEpoch command now => exact manualOutput_onward _ _ _ _ _ _
  | registerVirtual instrument heater => exact registerVirtual_onward _ _
  | registerThermalPlant plant => exact registerThermalPlant_onward _
  | registerMetakon config => exact registerMetakon_onward _
  | registerSimpleDevice config prepared => exact registerSimpleDevice_onward _ _
  | publishPreparedSimpleDevices instruments => exact publishPreparedSimpleDevices_onward _
  | discardPreparedSimpleDevices instruments => exact discardPreparedSimpleDevices_onward _
  | registerController config algorithmsValid => exact hsame (registerController_shell _ _)
  | configureControllerPid id pid expectedRevision algorithmsValid => exact hsame (configureControllerPid_shell _ _ _ _)
  | reconfigureController id config expectedRevision algorithmsValid referenceUnit =>
    exact hsame (reconfigureController_shell _ _ _ _ _)
  | prepareController id referenceUnit => exact hsame (prepareController_shell _ _)
  | startController id loop now =>
    exact capturing_onward id now (.bind (moves_onward (requireRecordingOpen_shell now)) fun _ =>
      startOrResumeController_onward _ _ _ _)
  | resumeController id loop now =>
    exact capturing_onward id now (.bind (moves_onward (requireRecordingOpen_shell now)) fun _ =>
      startOrResumeController_onward _ _ _ _)
  | tickController id loop now => exact tick_onward _ _ _
  | pauseController id now => exact capturing_onward id now (pauseController_onward _ _)
  | resetFailedController id now => exact capturing_onward id now (resetFailedController_onward _ _)
  | queueMetakonRead instrument parameter now queueTtl timeout => exact discarding_moves (queueMetakonRead_onward _ _ _ _ _)
  | queueSimpleDeviceRead instrument parameter now queueTtl timeout =>
    exact discarding_moves (queueSimpleDeviceRead_onward _ _ _ _ _)
  | queueMetakonOutput actuator now queueTtl timeout => exact discarding_moves (queueMetakonOutput_onward _ _ _ _)
  | pollTransports now => exact pollTransports_onward A now
  | serviceSafety now => exact serviceSafety_onward A now
  | rebindMetakon instrument binding now => exact rebindMetakon_onward _ _ _
  | rebindSimpleDevice instrument binding now => exact rebindSimpleDevice_onward _ _ _
  | reconfigureMetakon config expectedGeneration expectedRevision now => exact reconfigureMetakon_onward _ _ _ _
  | renameInstrument instrument name => exact hsame (renameInstrument_shell _ _)
  | registerTransport resource adapter recoveryTimeout => exact hsame (registerTransport_shell _ _ _)
  | replaceTransport resource adapter recoveryTimeout => exact replaceTransport_onward A _ _ _
  | shutdownTransport resource now => exact discarding_moves (shutdownTransport_onward A _ _)
  | enableRecordingFacts =>
    exact hsame (.update fun s => foldl_shell syncRecordingOutputContext_shell _ { s with recordingFacts := s.recordingFacts.enable })
  | disableRecordingFacts => exact hsame (record_shell _)
  | takeRecordingFacts => exact hsame (record_shell _)
  | requireRecording => exact hsame (.update fun _ => rfl)
  | confirmRecordingStart submittedAt now => exact hsame (confirmRecordingStart_shell _ _)
  | confirmRecordingProgress submittedAt now => exact hsame (confirmRecordingProgress_shell _ _)
  | recordingFailure now => exact hsame (.update fun s => s.recordingFailure_shell now)
  | closeRequiredRecording => exact hsame (.update fun s => by dsimp only; split_ifs <;> rfl)
  | nativeWork work => exact absurd rfl (h work)
  | checkOutputTime now => exact checkOutputTime_onward now
  | pauseDependent id now => exact pauseController_onward _ _
  | failDependent id now => exact hsame (failDependent_shell _ _)

end LabRuntime.Runtime
