import LabRuntime.Runtime.Moves

/-! The shell of the owner: which instruments its registries hold, which of them are only prepared, and its clocks.
Most calls leave the shell alone; what the others do to it is `Onward`. -/

namespace LabRuntime

/-- The instruments of each registry, and the clocks. -/
structure Shell where
  virtuals : List InstrumentId
  metakons : List InstrumentId
  simples : List InstrumentId
  plants : List InstrumentId
  prepared : List InstrumentId
  managed : List NativeInstrument
  outputTime : ℕ
  transportTime : ℕ

def Runtime.shell {σ : Type} (s : Runtime σ) : Shell :=
  { virtuals := s.virtualInstruments.keys, metakons := s.metakonInstruments.keys, simples := s.simpleDeviceInstruments.keys
    plants := s.thermalPlants.keys, prepared := s.preparedSimpleDevices, managed := s.managed, outputTime := s.outputTime
    transportTime := s.transportTime }

namespace Shell

/-- The instruments that are not managed. -/
def natives (c : Shell) : List InstrumentId := c.virtuals ++ c.metakons ++ c.simples ++ c.plants

/-- A query shows the instrument: it is registered, and not only prepared. -/
def Shows (c : Shell) (id : InstrumentId) : Prop :=
  id ∉ c.prepared ∧ (id ∈ c.natives ∨ ∃ item ∈ c.managed, item.descriptor.id = id)

/-- Every instrument is in one registry, the registries keep their limits, and only simple devices are prepared. -/
structure Coherent (c : Shell) : Prop where
  distinct : c.natives.Nodup
  limit : c.natives.length ≤ maxInstruments
  simpleLimit : c.simples.length ≤ maxSimpleInstruments
  prepared : ∀ id ∈ c.prepared, id ∈ c.simples

/-- What any call may do to the shell. -/
structure Onward (c c' : Shell) : Prop where
  outputTime : c.outputTime ≤ c'.outputTime
  transportTime : c.transportTime ≤ c'.transportTime
  managed : c'.managed = c.managed
  shows : ∀ id, c.Shows id → c'.Shows id
  coherent : c.Coherent → c'.Coherent

theorem Onward.refl (c : Shell) : c.Onward c := ⟨le_rfl, le_rfl, rfl, fun _ h => h, fun h => h⟩

theorem Onward.trans {c c' c'' : Shell} (h : c.Onward c') (h' : c'.Onward c'') : c.Onward c'' where
  outputTime := h.outputTime.trans h'.outputTime
  transportTime := h.transportTime.trans h'.transportTime
  managed := h'.managed.trans h.managed
  shows id hid := h'.shows id (h.shows id hid)
  coherent hc := h'.coherent (h.coherent hc)

theorem onward_clock {c : Shell} {now : ℕ} (h : c.outputTime ≤ now) : c.Onward { c with outputTime := now } :=
  ⟨h, le_rfl, rfl, fun _ h => h, fun h => ⟨h.distinct, h.limit, h.simpleLimit, h.prepared⟩⟩

theorem onward_transport {c : Shell} {now : ℕ} (h : c.transportTime ≤ now) : c.Onward { c with transportTime := now } :=
  ⟨le_rfl, h, rfl, fun _ h => h, fun h => ⟨h.distinct, h.limit, h.simpleLimit, h.prepared⟩⟩

/-- A new instrument in one registry. -/
theorem onward_registered {c c' : Shell} {id : InstrumentId} (hperm : c'.natives.Perm (id :: c.natives))
    (hnew : id ∉ c.natives) (hmanaged : ∀ item ∈ c.managed, item.descriptor.id ≠ id) (hlimit : c.natives.length < maxInstruments)
    (hsimple : c.Coherent → c'.simples.length ≤ maxSimpleInstruments)
    (hprepared : c.Coherent → ∀ other ∈ c'.prepared, other ∈ c'.simples)
    (hsame : ∀ other, other ≠ id → other ∈ c'.prepared → other ∈ c.prepared)
    (hrest : c'.managed = c.managed ∧ c'.outputTime = c.outputTime ∧ c'.transportTime = c.transportTime) : c.Onward c' := by
  obtain ⟨hmanaged', houtput, htransport⟩ := hrest
  refine ⟨houtput.ge, htransport.ge, hmanaged', ?_, ?_⟩
  · rintro other ⟨hfree, hin⟩
    have hne : other ≠ id := by
      rintro rfl
      rcases hin with hin | ⟨item, hitem, heq⟩
      · exact hnew hin
      · exact hmanaged item hitem heq
    refine ⟨fun hother => hfree (hsame other hne hother), hin.imp ?_ ?_⟩
    · intro hin
      exact hperm.mem_iff.2 (List.mem_cons_of_mem _ hin)
    · intro hitem
      rwa [hmanaged']
  · intro hc
    refine ⟨hperm.nodup_iff.2 (List.nodup_cons.2 ⟨hnew, hc.distinct⟩), ?_, hsimple hc, hprepared hc⟩
    have hlength := hperm.length_eq
    simp only [List.length_cons] at hlength
    omega

/-- Prepared devices become visible. -/
theorem onward_published (c : Shell) (p : InstrumentId → Bool) : c.Onward { c with prepared := c.prepared.filter p } := by
  refine ⟨le_rfl, le_rfl, rfl, ?_, ?_⟩
  · rintro id ⟨hfree, hin⟩
    exact ⟨fun hid => hfree (List.mem_filter.1 hid).1, hin⟩
  · intro hc
    exact ⟨hc.distinct, hc.limit, hc.simpleLimit, fun id hid => hc.prepared id (List.mem_filter.1 hid).1⟩

/-- Prepared devices are withdrawn. -/
theorem onward_discarded (c : Shell) {ids : List InstrumentId} (h : ∀ id ∈ ids, id ∈ c.prepared) :
    c.Onward { c with
      prepared := c.prepared.filter fun id => decide (id ∉ ids), simples := c.simples.filter fun id => decide (id ∉ ids) } := by
  refine ⟨le_rfl, le_rfl, rfl, ?_, ?_⟩
  · rintro id ⟨hfree, hin⟩
    have hkept : id ∉ ids := fun hid => hfree (h id hid)
    refine ⟨fun hid => hfree (List.mem_filter.1 hid).1, hin.imp_left fun hin => ?_⟩
    simp only [natives, List.mem_append, List.mem_filter, decide_eq_true_eq] at hin ⊢
    tauto
  · intro hc
    have hsub : (c.virtuals ++ c.metakons ++ c.simples.filter (fun id => decide (id ∉ ids)) ++ c.plants).Sublist c.natives :=
      ((List.Sublist.refl _).append List.filter_sublist).append (List.Sublist.refl _)
    refine ⟨hc.distinct.sublist hsub, hsub.length_le.trans hc.limit, (List.length_filter_le _ _).trans hc.simpleLimit, ?_⟩
    intro id hid
    obtain ⟨hprepared, hkept⟩ := List.mem_filter.1 hid
    exact List.mem_filter.2 ⟨hc.prepared id hprepared, hkept⟩

end Shell

namespace Runtime

variable {σ : Type} {s s' : Runtime σ}

/-- The call leaves the shell alone. -/
def SameShell (s s' : Runtime σ) : Prop := s'.shell = s.shell

def Onward (s s' : Runtime σ) : Prop := s.shell.Onward s'.shell

instance : Std.Refl (SameShell (σ := σ)) := ⟨fun _ => rfl⟩

instance : IsTrans (Runtime σ) SameShell := ⟨fun _ _ _ h h' => h'.trans h⟩

instance : Std.Refl (Onward (σ := σ)) := ⟨fun s => .refl s.shell⟩

instance : IsTrans (Runtime σ) Onward := ⟨fun _ _ _ => Shell.Onward.trans⟩

theorem SameShell.onward (h : SameShell s s') : Onward s s' := by
  unfold Onward
  rw [show s'.shell = s.shell from h]
  exact .refl _

theorem moves_onward {α : Type} {x : Step σ α} (h : Procedure.Moves SameShell x) : Procedure.Moves Onward x :=
  h.mono fun _ _ h => h.onward

/-- Once the clock shows a time, it still does afterwards. -/
def Timely (now : ℕ) (s s' : Runtime σ) : Prop := s.outputTime = now → s'.outputTime = now

instance (now : ℕ) : Std.Refl (Timely (σ := σ) now) := ⟨fun _ h => h⟩

instance (now : ℕ) : IsTrans (Runtime σ) (Timely now) := ⟨fun _ _ _ h h' htime => h' (h htime)⟩

theorem SameShell.timely (now : ℕ) (h : SameShell s s') : Timely now s s' := fun htime => (congrArg Shell.outputTime h).trans htime

/-- A query finds the instruments that the shell shows. -/
theorem descriptor_isSome (s : Runtime σ) (id : InstrumentId) : (s.descriptor id).isSome = true ↔ s.shell.Shows id := by
  have hmanaged : (s.managedInstrument id).isSome = true ↔ ∃ item ∈ s.managed, item.descriptor.id = id := by
    simp [managedInstrument, List.find?_isSome]
  have hall : (s.activationDescriptor id).isSome = true ↔ id ∈ s.shell.natives ∨ ∃ item ∈ s.managed, item.descriptor.id = id := by
    simp only [activationDescriptor, Option.isSome_or, Option.isSome_map, Bool.or_eq_true, hmanaged, Shell.natives, shell,
      List.mem_append, OrderedMap.mem_keys, or_assoc]
  have hshows : s.shell.Shows id ↔ id ∉ s.preparedSimpleDevices ∧ (s.activationDescriptor id).isSome = true := by
    rw [hall]
    rfl
  rw [hshows, descriptor, instrumentIsPrepared]
  by_cases hprepared : id ∈ s.preparedSimpleDevices <;> simp [hprepared]

theorem containsInstrument_eq (s : Runtime σ) (id : InstrumentId) :
    s.containsInstrument id = true ↔ id ∈ s.shell.natives ∨ ∃ item ∈ s.managed, item.descriptor.id = id := by
  have hmanaged : (s.managedInstrument id).isSome = true ↔ ∃ item ∈ s.managed, item.descriptor.id = id := by
    simp [managedInstrument, List.find?_isSome]
  simp only [containsInstrument, Bool.or_eq_true, hmanaged, Shell.natives, shell, List.mem_append, OrderedMap.mem_keys,
    OrderedMap.contains, or_assoc]

theorem natives_length_le (s : Runtime σ) : s.shell.natives.length ≤ s.instrumentCount := by
  simp only [Shell.natives, shell, instrumentCount, List.length_append, OrderedMap.keys, OrderedMap.size, List.length_map]
  omega

/-! ### Recording -/

theorem record_shell (f : FactOutbox → FactOutbox) : Procedure.Moves SameShell (record f : Step σ PUnit) :=
  .update fun _ => rfl

/-- Folding what leaves the shell alone leaves it alone. -/
theorem foldl_shell {α : Type} {f : Runtime σ → α → Runtime σ} (h : ∀ s a, (f s a).shell = s.shell) (as : List α) (s : Runtime σ) :
    (as.foldl f s).shell = s.shell := by
  induction as generalizing s with
  | nil => rfl
  | cons a as ih => exact (ih _).trans (h s a)

theorem syncRecordingOutputContext_shell (s : Runtime σ) (actuator : ActuatorId) :
    (s.syncRecordingOutputContext actuator).shell = s.shell := by
  unfold syncRecordingOutputContext
  cases s.outputs.get actuator <;> rfl

theorem failLiveController_shell (now : ℕ) (s : Runtime σ) (id : ControllerId) : (failLiveController now s id).shell = s.shell := by
  unfold failLiveController
  cases s.controllers.get id with
  | none => rfl
  | some controller =>
    dsimp only
    split_ifs <;> rfl

theorem tripOutput_shell (now : ℕ) (s : Runtime σ) (actuator : ActuatorId) : (tripOutput now s actuator).shell = s.shell := by
  unfold tripOutput
  cases s.outputs.get actuator with
  | none => rfl
  | some authority =>
    dsimp only
    rcases authority.command .trip now with ⟨_ | _, _⟩ <;> rfl

theorem recordingFailure_shell (s : Runtime σ) (now : ℕ) : (s.recordingFailure now).shell = s.shell := by
  unfold recordingFailure
  split_ifs
  · rfl
  · dsimp only
    rw [foldl_shell (tripOutput_shell now), foldl_shell (failLiveController_shell now)]
    rfl

theorem serviceRequiredRecordingDeadline_shell (s : Runtime σ) (now : ℕ) :
    (s.serviceRequiredRecordingDeadline now).shell = s.shell := by
  unfold serviceRequiredRecordingDeadline
  dsimp only
  split_ifs <;> simp only [recordingFailure_shell]

theorem serviced_shell (now : ℕ) :
    Procedure.Moves SameShell (modify fun s => s.serviceRequiredRecordingDeadline now : Step σ PUnit) :=
  .update fun s => s.serviceRequiredRecordingDeadline_shell now

theorem requireRecordingOpen_shell (now : ℕ) : Procedure.Moves SameShell (requireRecordingOpen now : Step σ Unit) := by
  refine .bind (serviced_shell now) fun _ => .bind .get fun s => ?_
  split_ifs
  · exact .stop _
  · exact .pure ()

/-! ### Authority calls -/

theorem settle_shell {α : Type} (actuator : ActuatorId) (o : Outcome α) : Procedure.Moves SameShell (settle actuator o : Step σ α) :=
  fun s => by
    rw [settle_snd]
    rfl

theorem onOutput_shell {α : Type} (actuator : ActuatorId) (f : OutputAuthority → Outcome α) :
    Procedure.Moves SameShell (onOutput actuator f : Step σ α) := by
  refine .bind .get fun s => ?_
  cases s.outputs.get actuator with
  | none => exact .stop _
  | some authority => exact settle_shell _ _

theorem changeOutput_shell (actuator : ActuatorId) (f : OutputAuthority → OutputAuthority) :
    Procedure.Moves SameShell (changeOutput actuator f : Step σ PUnit) := .update fun s => by
  cases s.outputs.get actuator <;> rfl

theorem newAuthority_shell (actuator : ActuatorId) (limits : ValueSpec) (unit : EngineeringUnit) :
    Procedure.Moves SameShell (newAuthority actuator limits unit : Step σ OutputAuthority) := by
  intro s
  unfold newAuthority
  rw [Procedure.run_get_bind]
  cases checkedAdd s.nextInstance 1 <;> rfl

theorem newAuthorities_shell (id : InstrumentId) (parameters : List ParameterDescriptor) :
    Procedure.Moves SameShell (newAuthorities id parameters : Step σ (List (ActuatorId × OutputAuthority))) := by
  induction parameters with
  | nil => exact .pure []
  | cons parameter rest ih => exact .bind (newAuthority_shell _ _ _) fun _ => .bind ih fun _ => .pure _

theorem allocateOutputAttempt_shell : Procedure.Moves SameShell (allocateOutputAttempt : Step σ ℕ) := by
  intro s
  unfold allocateOutputAttempt
  rw [Procedure.run_get_bind]
  cases checkedAdd s.nextOutputAttempt 1 <;> rfl

theorem allocateSafeOutputAttempt_shell : Procedure.Moves SameShell (allocateSafeOutputAttempt : Step σ (Option ℕ)) := by
  intro s
  unfold allocateSafeOutputAttempt
  rw [Procedure.run_get_bind]
  cases checkedAdd s.nextOutputAttempt 1 <;> rfl

/-! ### Clocks and watchdogs -/

theorem tickOutputWatchdog_shell (now : ℕ) (actuator : ActuatorId) :
    Procedure.Moves SameShell (tickOutputWatchdog now actuator : Step σ Unit) := by
  have hrecords : ∀ safeAttempt, Procedure.Moves SameShell (do
      record fun facts => facts.outputCorrelated actuator .revoked none now .none safeAttempt none
      record fun facts => facts.outputCorrelated actuator .safeRequested none now .none safeAttempt none : Step σ PUnit) :=
    fun _ => .bind (record_shell _) fun _ => record_shell _
  refine .bind .get fun s => ?_
  cases s.outputs.get actuator with
  | none => exact .stop _
  | some before =>
    refine .bind (settle_shell _ _) fun _ => .bind .get fun s => ?_
    dsimp only
    by_cases hsame : (s.outputs.get actuator).map (fun authority => authority.snapshot.epoch) = some before.snapshot.epoch
    · rw [if_pos hsame]
      exact .pure ()
    · rw [if_neg hsame]
      refine .bind (.update fun s => s.syncRecordingOutputContext_shell actuator) fun _ => ?_
      split_ifs
      on_goal 1 => refine .bind (record_shell _) fun _ => ?_
      all_goals
        refine .bind allocateSafeOutputAttempt_shell fun safeAttempt => ?_
        cases safeAttempt with
        | none => exact hrecords none
        | some attempt => exact .bind (.update fun _ => rfl) fun _ => hrecords (some attempt)

theorem tickOutputWatchdogs_shell (now : ℕ) : Procedure.Moves SameShell (tickOutputWatchdogs now : Step σ Unit) :=
  .bind .get fun _ => .forEach fun actuator _ => tickOutputWatchdog_shell now actuator

/-- A checked clock either stays or goes on, and nothing else of the shell changes. -/
theorem checkOutputTime_shell (now : ℕ) (s : Runtime σ) :
    ∃ time ≥ s.outputTime, ((checkOutputTime now).run s).2.shell = { s.shell with outputTime := time } := by
  unfold checkOutputTime
  rw [Procedure.run_get_bind]
  dsimp only
  split_ifs with hlate
  · exact ⟨s.outputTime, le_rfl, rfl⟩
  · exact ⟨now, not_lt.1 hlate, tickOutputWatchdogs_shell now { s with outputTime := now }⟩

theorem checkOutputTime_onward (now : ℕ) : Procedure.Moves Onward (checkOutputTime now : Step σ Unit) := by
  intro s
  obtain ⟨time, hlater, hshell⟩ := checkOutputTime_shell now s
  unfold Onward
  rw [hshell]
  exact Shell.onward_clock hlater

theorem checkOutputTime_timely (now : ℕ) : Procedure.Moves (Timely now) (checkOutputTime now : Step σ Unit) := by
  intro s htime
  unfold checkOutputTime
  rw [Procedure.run_get_bind]
  dsimp only
  split_ifs
  · exact htime
  · exact (SameShell.timely now (tickOutputWatchdogs_shell now { s with outputTime := now })) rfl

/-- A clock that was accepted shows the time. -/
theorem checkOutputTime_ok {now : ℕ} {u : Unit} (h : (checkOutputTime now).run s = (.ok u, s')) : s'.outputTime = now := by
  unfold checkOutputTime at h
  rw [Procedure.run_get_bind] at h
  have hrun := SameShell.timely now (tickOutputWatchdogs_shell now { s with outputTime := now }) rfl
  dsimp only at h
  split_ifs at h
  · cases h
  · rw [Procedure.run_modify_bind] at h
    rwa [h] at hrun

theorem checkTransportTime_shell (now : ℕ) (s : Runtime σ) :
    ∃ time ≥ s.transportTime, ((checkTransportTime now).run s).2.shell = { s.shell with transportTime := time } := by
  unfold checkTransportTime
  rw [Procedure.run_get_bind]
  dsimp only
  split_ifs with hlate
  · exact ⟨s.transportTime, le_rfl, rfl⟩
  · exact ⟨now, not_lt.1 hlate, rfl⟩

theorem checkTransportTime_onward (now : ℕ) : Procedure.Moves Onward (checkTransportTime now : Step σ Unit) := by
  intro s
  obtain ⟨time, hlater, hshell⟩ := checkTransportTime_shell now s
  unfold Onward
  rw [hshell]
  exact Shell.onward_transport hlater

theorem checkTransportTime_timely (time now : ℕ) : Procedure.Moves (Timely time) (checkTransportTime now : Step σ Unit) := by
  intro s htime
  obtain ⟨later, -, hshell⟩ := checkTransportTime_shell now s
  have houtput : ((checkTransportTime now).run s).2.shell.outputTime = s.outputTime := by
    rw [hshell]
    rfl
  exact houtput.trans htime

/-! ### Simulated sends and controller failure -/

theorem beginSimulated_shell (actuator : ActuatorId) (now : ℕ) :
    Procedure.Moves SameShell (beginSimulated actuator now : Step σ Dispatch) := by
  refine .bind .get fun s => ?_
  cases s.outputs.get actuator with
  | none => exact .stop _
  | some authority =>
    refine .bind (settle_shell _ _) fun result => ?_
    cases result with
    | dispatched dispatch => exact .bind .get fun _ => .bind (.update fun _ => rfl) fun _ => .pure _
    | _ => exact .stop _

/-- Replacing what is registered leaves the shell alone. -/
theorem keys_replace {κ α : Type} [LinearOrder κ] {m : OrderedMap κ α} {k : κ} {a : α} (h : m.get k = some a) (b : α) :
    (m.insert k b).keys = m.keys := m.keys_insert_of_mem (m.mem_keys.2 (by rw [h]; rfl))

theorem heat_shell {id : InstrumentId} {plant : ThermalPlant} (h : s.thermalPlants.get id = some plant) (plant' : ThermalPlant) :
    SameShell s { s with thermalPlants := s.thermalPlants.insert id plant' } := by
  simp only [SameShell, shell, keys_replace h]

theorem applyVirtualDispatch_shell (actuator : ActuatorId) (value : F64) :
    Procedure.Moves SameShell (applyVirtualDispatch actuator value : Step σ Unit) := by
  intro s
  unfold applyVirtualDispatch
  rw [Procedure.run_get_bind]
  cases hget : s.thermalPlants.get actuator.instrument with
  | none => rfl
  | some plant =>
    dsimp only
    split_ifs
    · cases (ValueSpec.float (F64.ofInt 0) (F64.ofInt 100)).validate (.float value) with
      | error error => rfl
      | ok _ => exact heat_shell hget _
    · rfl

theorem completeSimulatedSafe_shell (actuator : ActuatorId) (now : ℕ) :
    Procedure.Moves SameShell (completeSimulatedSafe actuator now : Step σ Unit) :=
  .bind (beginSimulated_shell _ _) fun _ => .bind .get fun _ => .bind (record_shell _) fun _ =>
    .bind (applyVirtualDispatch_shell _ _) fun _ => .bind (onOutput_shell _ _) fun _ => record_shell _

/-- A settled command, and then its safe send at a simulation. -/
theorem settleSimulated_shell {α : Type} (actuator output : ActuatorId) (o : Outcome α) (now : ℕ) :
    Procedure.Moves SameShell (do
      let _ ← settle actuator o
      if (← get).thermalPlants.contains output.instrument then completeSimulatedSafe output now : Step σ Unit) := by
  refine .bind (settle_shell _ _) fun _ => .bind .get fun s => ?_
  split_ifs
  · exact completeSimulatedSafe_shell _ _
  · exact .pure ()

theorem failController_shell (controller : NativeController) (now : ℕ) :
    Procedure.Moves SameShell (failController controller now : Step σ Unit) := by
  refine .bind .get fun s => ?_
  cases s.outputs.get controller.config.output with
  | none => exact .stop _
  | some authority =>
    dsimp only
    split_ifs
    · exact settleSimulated_shell _ _ _ _
    · exact .pure ()

end Runtime
end LabRuntime
