import LabRuntime.Runtime.CommandMoves

/-! Registration, rebinding, reads, recording and the rest of the host's calls as moves; from them, that every
run of calls is a path from the empty owner. -/

namespace LabRuntime.Runtime

open Metakon
open Core (Inv Path Micro)

variable {σ : Type} {P : Premises} {s s' : Runtime σ} {k : ActuatorId}

/-! ### New authorities -/

/-- The identities of these authorities are new from `low` up to `high`. -/
def Minted (low high : ℕ) (entries : List (ActuatorId × OutputAuthority)) : Prop :=
  ∀ e ∈ entries, ∃ id limits unit, low ≤ id ∧ id < high ∧ e.2 = OutputAuthority.new id e.1 limits unit

theorem newAuthority_core (actuator : ActuatorId) (limits : ValueSpec) (unit : EngineeringUnit) (s : Runtime σ) :
    ∃ n, s.nextInstance ≤ n ∧ ((newAuthority actuator limits unit).run s).2.core = { s.core with nextInstance := n } ∧
      ∀ a, ((newAuthority actuator limits unit).run s).1 = .ok a → Minted s.nextInstance n [(actuator, a)] := by
  unfold newAuthority
  rw [Procedure.run_get_bind]
  cases hnext : checkedAdd s.nextInstance 1 with
  | none => exact ⟨s.nextInstance, le_rfl, rfl, fun a h => by cases h⟩
  | some following =>
    obtain ⟨rfl, -⟩ := checkedAdd_eq_some.1 hnext
    refine ⟨s.nextInstance + 1, Nat.le_succ _, rfl, fun a h => ?_⟩
    obtain rfl := Except.ok.inj h
    intro e he
    obtain rfl := List.mem_singleton.1 he
    exact ⟨s.nextInstance, limits, unit, le_rfl, Nat.lt_succ_self _, rfl⟩

theorem newAuthorities_core (id : InstrumentId) (parameters : List ParameterDescriptor) (s : Runtime σ) :
    ∃ n, s.nextInstance ≤ n ∧ ((newAuthorities id parameters).run s).2.core = { s.core with nextInstance := n } ∧
      ∀ es, ((newAuthorities id parameters).run s).1 = .ok es → Minted s.nextInstance n es := by
  induction parameters generalizing s with
  | nil =>
    refine ⟨s.nextInstance, le_rfl, rfl, fun es h => ?_⟩
    obtain rfl := Except.ok.inj h
    exact fun e he => by cases he
  | cons parameter parameters ih =>
    obtain ⟨n, hn, hcore, hmint⟩ := newAuthority_core { instrument := id, parameter := parameter.id }
      parameter.valueSpec parameter.unit s
    unfold newAuthorities
    obtain ⟨e, s₁, hrun, heq⟩ | ⟨a, s₁, hrun, heq⟩ := Procedure.bind_cases (newAuthority
      { instrument := id, parameter := parameter.id } parameter.valueSpec parameter.unit) (fun authority => do
        let authorities ← newAuthorities id parameters
        return (({ instrument := id, parameter := parameter.id } : ActuatorId), authority) :: authorities) s
    · rw [hrun] at hcore
      exact ⟨n, hn, by rw [heq]; exact hcore, fun es h => by rw [heq] at h; cases h⟩
    · rw [hrun] at hcore hmint
      have hnext : s₁.nextInstance = n := congrArg Core.nextInstance hcore
      obtain ⟨n', hn', hcore', hmint'⟩ := ih s₁
      rw [heq]
      refine ⟨n', hn.trans (hnext ▸ hn'), ?_, fun es h => ?_⟩
      · rw [Procedure.run_bind_pure, hcore', hcore]
      · obtain ⟨e, s₂, hrun', heq'⟩ | ⟨rest, s₂, hrun', heq'⟩ := Procedure.bind_cases (newAuthorities id parameters)
          (fun authorities => (pure ((({ instrument := id, parameter := parameter.id } : ActuatorId), a) :: authorities) :
            Step σ (List (ActuatorId × OutputAuthority)))) s₁
        · rw [heq'] at h
          cases h
        · rw [heq'] at h
          obtain rfl := Except.ok.inj h
          rw [hrun'] at hmint'
          intro e he
          obtain rfl | he := List.mem_cons.1 he
          · obtain ⟨i, limits, unit, hlow, hhigh, heq⟩ := hmint a rfl _ List.mem_cons_self
            exact ⟨i, limits, unit, hlow, hhigh.trans_le (hnext ▸ hn'), heq⟩
          · obtain ⟨i, limits, unit, hlow, hhigh, heq⟩ := hmint' rest rfl e he
            exact ⟨i, limits, unit, hn.trans (hnext ▸ hlow), hhigh, heq⟩

/-- What follows the creation of authorities: it installs them, or it leaves the outputs alone. -/
def Installs (entries : List (ActuatorId × OutputAuthority)) (s s' : Runtime σ) : Prop :=
  s'.core = s.core ∨ s'.core = { s.core with outputs := s.outputs.extend entries }

/-- New authorities and their installation are one move. -/
theorem minted_keeps {s₁ : Runtime σ} {n : ℕ} {entries : List (ActuatorId × OutputAuthority)} (hn : s.nextInstance ≤ n)
    (hcore : s₁.core = { s.core with nextInstance := n }) (hmint : Minted s.nextInstance n entries)
    (h : Installs entries s₁ s') : Keeps P s s' := by
  have houts : s₁.outputs = s.outputs := congrArg Core.outputs hcore
  obtain h | h := h
  · exact .of_core (h.trans hcore) rfl fun _ => @Micro.installed P s.core [] _ hn fun e he => by cases he
  · rw [hcore, houts] at h
    exact .of_core h rfl fun _ => .installed hn hmint

theorem newAuthority_keeps {actuator : ActuatorId} {limits : ValueSpec} {unit : EngineeringUnit}
    {rest : OutputAuthority → Step σ Unit} (h : ∀ a s₁, Installs [(actuator, a)] s₁ ((rest a).run s₁).2) :
    Keeps P s ((newAuthority actuator limits unit >>= rest).run s).2 := by
  obtain ⟨n, hn, hcore, hmint⟩ := newAuthority_core actuator limits unit s
  obtain ⟨e, s₁, hrun, heq⟩ | ⟨a, s₁, hrun, heq⟩ := Procedure.bind_cases (newAuthority actuator limits unit) rest s
  · rw [hrun] at hcore
    rw [heq]
    exact @minted_keeps σ P s _ s₁ n [] hn hcore (fun e he => by cases he) (.inl rfl)
  · rw [hrun] at hcore hmint
    rw [heq]
    exact minted_keeps hn hcore (hmint a rfl) (h a s₁)

theorem newAuthorities_keeps {id : InstrumentId} {parameters : List ParameterDescriptor}
    {rest : List (ActuatorId × OutputAuthority) → Step σ Unit} (h : ∀ es s₁, Installs es s₁ ((rest es).run s₁).2) :
    Keeps P s ((newAuthorities id parameters >>= rest).run s).2 := by
  obtain ⟨n, hn, hcore, hmint⟩ := newAuthorities_core id parameters s
  obtain ⟨e, s₁, hrun, heq⟩ | ⟨es, s₁, hrun, heq⟩ := Procedure.bind_cases (newAuthorities id parameters) rest s
  · rw [hrun] at hcore
    rw [heq]
    exact @minted_keeps σ P s _ s₁ n [] hn hcore (fun e he => by cases he) (.inl rfl)
  · rw [hrun] at hcore hmint
    rw [heq]
    exact minted_keeps hn hcore (hmint es rfl) (h es s₁)

/-! ### Registration -/

theorem installAuthorities_core (entries : List (ActuatorId × OutputAuthority)) (s : Runtime σ) :
    ((installAuthorities entries).run s).2.core = { s.core with outputs := s.outputs.extend entries } :=
  foldl_sync_core _ _

/-- A registration that stores its instrument and installs its authorities. -/
theorem store_install {entries : List (ActuatorId × OutputAuthority)} {f : Runtime σ → Runtime σ} (s : Runtime σ)
    (h : (f s).core = s.core) : Installs entries s ((do
      modify f
      installAuthorities entries : Step σ PUnit).run s).2 := by
  have houts : (f s).outputs = s.outputs := congrArg Core.outputs h
  refine .inr ?_
  rw [Procedure.run_modify_bind, installAuthorities_core, h, houts]

theorem requireFreeInstrument_run (id : InstrumentId) (s : Runtime σ) : ((requireFreeInstrument id).run s).2 = s := by
  unfold requireFreeInstrument
  rw [Procedure.run_get_bind]
  split_ifs
  · rfl
  · rfl
  · rfl
  · rfl

/-- A registration of an identity that is free. -/
theorem free_keeps {id : InstrumentId} {rest : Step σ Unit} (h : Keeps P s (rest.run s).2) :
    Keeps P s ((do
      requireFreeInstrument id
      rest : Step σ Unit).run s).2 := by
  refine Procedure.Moves.bind_at ?_ fun u s₁ hrun => ?_
  · rw [requireFreeInstrument_run]
    exact refl_of (Keeps P) s
  · obtain rfl : s₁ = s := by rw [← requireFreeInstrument_run id s, hrun]
    exact h

theorem registerVirtual_keeps (instrument : NativeInstrument) (heater : ParameterDescriptor) :
    Procedure.Moves (Keeps P) (registerVirtual instrument heater : Step σ Unit) := by
  intro s
  refine free_keeps ?_
  dsimp only
  by_cases hrole : heater.role ≠ .actuator ∨ heater.writeEffect ≠ .outputAffecting
  · rw [if_pos hrole]
    exact refl_of (Keeps P) s
  · rw [if_neg hrole]
    exact newAuthority_keeps fun a s₁ => store_install s₁ rfl

theorem registerThermalPlant_keeps (plant : ThermalPlant) :
    Procedure.Moves (Keeps P) (registerThermalPlant plant : Step σ Unit) := by
  intro s
  refine free_keeps ?_
  cases plant.descriptor.parameter heaterPower with
  | none => exact refl_of (Keeps P) s
  | some heater => exact newAuthority_keeps fun a s₁ => store_install s₁ rfl

theorem registerMetakon_keeps (config : MetakonInstrumentConfig) :
    Procedure.Moves (Keeps P) (registerMetakon config : Step σ Unit) := by
  intro s
  refine free_keeps ?_
  cases MetakonInstrument.new config with
  | error error => exact refl_of (Keeps P) s
  | ok instrument => exact newAuthorities_keeps fun es s₁ => store_install s₁ rfl

theorem registerSimpleDevice_keeps (config : SimpleDeviceInstrumentConfig) (prepared : Bool) :
    Procedure.Moves (Keeps P) (registerSimpleDevice config prepared : Step σ Unit) := by
  intro s
  refine free_keeps ?_
  rw [Procedure.run_get_bind]
  by_cases hfull : s.simpleDeviceInstruments.size ≥ maxSimpleInstruments
  · simp only [if_pos hfull]
    exact refl_of (Keeps P) s
  simp only [if_neg hfull]
  cases s.resources.contains config.binding.resource with
  | false => exact refl_of (Keeps P) s
  | true =>
    cases SimpleDeviceInstrument.new config with
    | error error => exact refl_of (Keeps P) s
    | ok instrument => exact newAuthorities_keeps fun es s₁ => store_install s₁ rfl

theorem publishPreparedSimpleDevices_same (instruments : List InstrumentId) :
    Procedure.Moves SameCore (publishPreparedSimpleDevices instruments : Step σ Unit) := by
  refine .bind .get fun s => ?_
  dsimp only
  split_ifs
  · exact .bind (.stop _) fun _ => .update fun s => rfl
  · exact .update fun s => rfl

/-! ### Discarding -/

theorem cancelPreparedOutput_keeps (key : TransactionKey) (pending : PendingOutputWrite) :
    Procedure.Moves (Keeps P) (cancelPreparedOutput key pending : Step σ Unit) := by
  refine .bind .get fun s => ?_
  cases s.resources.get key.resource with
  | none => exact .stop _
  | some r =>
    dsimp only
    rcases r.executor.cancelQueuedOutput key.transaction with ⟨intent, executor⟩
    have hrest : Procedure.Moves (Keeps P) (do
        onOutput pending.actuator fun authority => (.ok (), authority.abortTransport (intent.getD pending.intent))
        modify fun s => { s with pendingOutputWrites := s.pendingOutputWrites.remove key } : Step σ Unit) :=
      .bind (onOutput_keeps _ (b := .abortTransport (intent.getD pending.intent)) 0 rfl fun _ => rfl) fun _ =>
        .update fun s => SameCore.keeps rfl
    refine .bind (.update fun s => SameCore.keeps rfl) fun _ => ?_
    split_ifs
    · exact .bind (.stop _) fun _ => hrest
    · exact hrest

theorem dropPreparedController_keeps (id : ControllerId) :
    Procedure.Moves (Keeps P) (dropPreparedController id : Step σ Unit) := by
  refine .bind .get fun s => ?_
  have hdrop : Procedure.Moves (Keeps P) (modify fun s => { s with controllers := s.controllers.remove id } : Step σ PUnit) :=
    .update fun s => .micro rfl fun _ => .dropped
  cases s.controllers.get id with
  | none => exact .stop _
  | some controller =>
    dsimp only
    split_ifs
    · exact .bind (.stop _) fun _ => hdrop
    · exact hdrop

/-- Folding what keeps the owner keeps it. -/
theorem foldl_keeps {α : Type} {f : Runtime σ → α → Runtime σ} (h : ∀ s a, Keeps P s (f s a)) (as : List α) (s : Runtime σ) :
    Keeps P s (as.foldl f s) := by
  induction as generalizing s with
  | nil => exact refl_of (Keeps P) s
  | cons a as ih => exact trans_of (Keeps P) (h s a) (ih _)

theorem dropPreparedInstrument_keeps (id : InstrumentId) (s : Runtime σ) : Keeps P s (s.dropPreparedInstrument id) := by
  unfold dropPreparedInstrument
  dsimp only
  cases s.simpleDeviceInstruments.get id with
  | none => exact SameCore.keeps rfl
  | some device =>
    dsimp only
    have hremove : ∀ (s : Runtime σ) (parameter : ParameterDescriptor), Keeps P s { s with
        outputs := s.outputs.remove { instrument := id, parameter := parameter.id }
        outputAttempts := s.outputAttempts.remove { instrument := id, parameter := parameter.id }
        outputDispatchAttempts := s.outputDispatchAttempts.remove { instrument := id, parameter := parameter.id } } :=
      fun s parameter => .micro rfl fun _ => .removed
    have hdrop : SameCore s { s with
        preparedSimpleDevices := s.preparedSimpleDevices.filter fun prepared => prepared ≠ id
        simpleDeviceInstruments := s.simpleDeviceInstruments.remove id } := rfl
    exact trans_of (Keeps P) hdrop.keeps (foldl_keeps hremove _ _)

theorem discardPreparedSimpleDevices_keeps (instruments : List InstrumentId) :
    Procedure.Moves (Keeps P) (discardPreparedSimpleDevices instruments : Step σ Unit) := by
  unfold discardPreparedSimpleDevices
  by_cases hsize : (instruments.isEmpty || decide (instruments.length > 4)) = true
  · rw [if_pos hsize]
    exact fun s => refl_of (Keeps P) s
  · rw [if_neg hsize]
    refine .bind .get fun s => .bind (.forEach fun id _ => ?_) fun _ => .bind (.forEach fun entry _ => ?_) fun _ =>
      .bind (.forEach fun id _ => dropPreparedController_keeps id) fun _ =>
        .update fun s => foldl_keeps (fun s id => dropPreparedInstrument_keeps id s) _ s
    · split_ifs
      · exact .stop _
      · exact .stop _
      · exact .pure _
    · exact cancelPreparedOutput_keeps entry.1 entry.2

/-! ### Reads -/

theorem enqueueReadOn_same (fence : BindingFence) (request : List UInt8) (expectedResponse now deadline timeout : ℕ) :
    Procedure.Moves SameCore (enqueueReadOn fence request expectedResponse now deadline timeout : Step σ TransactionKey) := by
  refine .bind .get fun s => ?_
  cases s.resources.get fence.resource with
  | none => exact .stop _
  | some r =>
    dsimp only
    rcases r.executor.enqueueRead request expectedResponse now deadline timeout true fence.bindingGeneration
      fence.mappingRevision with ⟨result, executor⟩
    refine .bind (.update fun s => rfl) fun _ => ?_
    cases result with
    | error error => exact .stop _
    | ok transaction => exact .pure _

theorem queueMetakonRead_same (instrument : InstrumentId) (parameter : ParameterId) (now queueTtl timeout : ℕ) :
    Procedure.Moves SameCore (queueMetakonRead instrument parameter now queueTtl timeout : Step σ ℕ) := by
  refine .bind (checkTransportTime_same now) fun _ => .bind .get fun s => ?_
  cases s.metakonInstruments.get instrument with
  | none => exact .stop _
  | some inst =>
    dsimp only
    cases inst.definition.parameterDefinition parameter with
    | none => exact .stop _
    | some definition =>
      dsimp only
      by_cases haccess : definition.access = .writeOnly
      · rw [if_pos haccess]
        exact .stop _
      rw [if_neg haccess]
      cases durationAdd now queueTtl with
      | none => exact .stop _
      | some deadline =>
        cases encodeRead (expectedRead inst.binding definition.operation).address with
        | error error => exact .stop _
        | ok request =>
          exact .bind (enqueueReadOn_same _ _ _ _ _ _) fun key => .bind (.update fun s => rfl) fun _ => .pure _

theorem queueSimpleDeviceRead_same (instrument : InstrumentId) (parameter : ParameterId) (now queueTtl timeout : ℕ) :
    Procedure.Moves SameCore (queueSimpleDeviceRead instrument parameter now queueTtl timeout : Step σ ℕ) := by
  refine .bind (checkTransportTime_same now) fun _ => .bind .get fun s => ?_
  by_cases hprepared : s.instrumentIsPrepared instrument = true
  · simp only [if_pos hprepared]
    exact .stop _
  simp only [if_neg hprepared]
  cases s.simpleDeviceInstruments.get instrument with
  | none => exact .stop _
  | some inst =>
    dsimp only
    cases inst.plans.get parameter with
    | none => exact .stop _
    | some plan =>
      cases durationAdd now queueTtl with
      | none => exact .stop _
      | some deadline =>
        exact .bind (enqueueReadOn_same _ _ _ _ _ _) fun key => .bind (.update fun s => rfl) fun _ => .pure _

/-! ### Rebinding -/

theorem completeRebind_core (id : InstrumentId) (resource : ResourceId) (entries : List (ActuatorId × OutputAuthority))
    (s : Runtime σ) : ((completeRebind id resource entries).run s).2.core = { s.core with outputs := s.outputs.extend entries } :=
  rfl

/-- A rebind stores what it rebound, and installs the replacements unless a window refuses its sample. -/
theorem rebind_installs {id : InstrumentId} {resource : ResourceId} {entries : List (ActuatorId × OutputAuthority)}
    {store : Runtime σ → Runtime σ} {result : Except Abort Unit} {facts : FactOutbox → FactOutbox} (s : Runtime σ)
    (hstore : (store s).core = s.core) : Installs entries s ((do
      modify store
      Procedure.lift result
      record facts
      completeRebind id resource entries : Step σ PUnit).run s).2 := by
  have houts : (store s).outputs = s.outputs := congrArg Core.outputs hstore
  rw [Procedure.run_modify_bind]
  cases result with
  | error e => exact .inl hstore
  | ok u =>
    refine .inr ?_
    show { (store s).core with outputs := (store s).outputs.extend entries } = _
    rw [hstore, houts]

theorem rebindMetakon_keeps (id : InstrumentId) (binding : MetakonBinding) (now : ℕ) :
    Procedure.Moves (Keeps P) (rebindMetakon id binding now : Step σ Unit) := by
  refine .bind .get fun s => ?_
  by_cases hdriven : s.drivenLive id = true
  · rw [if_pos hdriven]
    exact .stop _
  rw [if_neg hdriven]
  refine .bind (checkOutputTime_keeps now) fun _ => .bind .get fun s => ?_
  cases s.metakonInstruments.get id with
  | none => exact .stop _
  | some inst =>
    dsimp only
    by_cases hbinding : binding.bindingGeneration = 0 ∨ binding.mappingRevision = 0 ∨
        (!s.resources.contains binding.resource) = true
    · rw [if_pos hbinding]
      exact .stop _
    rw [if_neg hbinding]
    by_cases htiming : (!metakonTimingConsistent inst.descriptor.actuators binding) = true
    · rw [if_pos htiming]
      exact .stop _
    rw [if_neg htiming]
    exact fun s => newAuthorities_keeps fun es s₁ => rebind_installs s₁ rfl

theorem rebindSimpleDevice_keeps (id : InstrumentId) (binding : SimpleDeviceBinding) (now : ℕ) :
    Procedure.Moves (Keeps P) (rebindSimpleDevice id binding now : Step σ Unit) := by
  refine .bind .get fun s => ?_
  by_cases hdriven : s.drivenLive id = true
  · simp only [if_pos hdriven]
    exact .stop _
  simp only [if_neg hdriven]
  cases s.simpleDeviceInstruments.get id with
  | none => exact .stop _
  | some inst =>
    dsimp only
    have hrest : Procedure.Moves (Keeps P) (do
        if binding.bindingGeneration = 0 ∨ binding.mappingRevision = 0 ∨ !(← get).resources.contains binding.resource then
          reject (.invalidConfiguration "invalid replacement binding")
        if binding.bindingGeneration ≠ (checkedAdd inst.binding.bindingGeneration 1).getD 0 ∨
            binding.mappingRevision ≠ (checkedAdd inst.binding.mappingRevision 1).getD 0 then
          reject (.invalidConfiguration "stale simple-device rebind")
        if !simpleTimingConsistent inst.writes.size binding then
          reject (.invalidConfiguration "simple-device output binding is inconsistent")
        let replacements ← newAuthorities id inst.descriptor.actuators
        modify fun s => { s with
          simpleDeviceInstruments := s.simpleDeviceInstruments.insert id { inst with
            binding := binding, signals := (invalidateSignals now inst.descriptor.signals inst.signals).2 } }
        Procedure.lift (invalidateSignals now inst.descriptor.signals inst.signals).1
        record (invalidationFacts now inst.descriptor.signals binding.fence)
        completeRebind id binding.resource replacements : Step σ PUnit) := by
      refine .bind .get fun s => ?_
      by_cases hbinding : binding.bindingGeneration = 0 ∨ binding.mappingRevision = 0 ∨
          (!s.resources.contains binding.resource) = true
      · rw [if_pos hbinding]
        exact .stop _
      rw [if_neg hbinding]
      by_cases hstale : binding.bindingGeneration ≠ (checkedAdd inst.binding.bindingGeneration 1).getD 0 ∨
          binding.mappingRevision ≠ (checkedAdd inst.binding.mappingRevision 1).getD 0
      · simp only [if_pos hstale]
        exact .stop _
      simp only [if_neg hstale]
      by_cases htiming : (!simpleTimingConsistent inst.writes.size binding) = true
      · simp only [if_pos htiming]
        exact .stop _
      simp only [if_neg htiming]
      exact fun s => newAuthorities_keeps fun es s₁ => rebind_installs s₁ rfl
    by_cases hreads : inst.writes.size = 0
    · rw [if_pos hreads]
      exact .bind (moves_keeps (checkTransportTime_same now)) fun _ => hrest
    · rw [if_neg hreads]
      exact .bind (checkOutputTime_keeps now) fun _ => hrest

theorem reconfigureMetakon_keeps (config : MetakonInstrumentConfig) (expectedGeneration expectedRevision now : ℕ) :
    Procedure.Moves (Keeps P) (reconfigureMetakon config expectedGeneration expectedRevision now : Step σ Unit) := by
  refine .bind (checkOutputTime_keeps now) fun _ => .bind .get fun s => ?_
  cases s.metakonInstruments.get config.definition.id with
  | none => exact .stop _
  | some current =>
    dsimp only
    by_cases hstale : current.binding.bindingGeneration ≠ expectedGeneration ∨
        current.binding.mappingRevision ≠ expectedRevision ∨
        config.binding.bindingGeneration ≠ (checkedAdd expectedGeneration 1).getD 0 ∨
        config.binding.mappingRevision ≠ (checkedAdd expectedRevision 1).getD 0 ∨
        (!s.resources.contains config.binding.resource) = true
    · rw [if_pos hstale]
      exact .stop _
    rw [if_neg hstale]
    by_cases hused : s.usedLive config.definition.id = true
    · rw [if_pos hused]
      exact .stop _
    rw [if_neg hused]
    cases MetakonInstrument.new config with
    | error error => exact .stop _
    | ok candidate =>
      refine fun s => newAuthorities_keeps fun es s₁ => ?_
      rcases invalidateSignals now candidate.descriptor.signals candidate.signals with ⟨error | u, signals⟩
      · exact .inl rfl
      · exact .inr rfl

theorem renameInstrument_same (id : InstrumentId) (name : String) :
    Procedure.Moves SameCore (renameInstrument id name : Step σ Unit) := by
  refine .bind (attempt_keeps _) fun _ => fun s => ?_
  rw [Procedure.run_get_bind]
  cases s.virtualInstruments.get id with
  | some inst => rfl
  | none =>
    cases s.metakonInstruments.get id with
    | some inst => rfl
    | none =>
      cases s.thermalPlants.get id with
      | some plant => rfl
      | none => cases s.simpleDeviceInstruments.get id <;> rfl

/-! ### Transports -/

theorem registerTransport_same (resource : ResourceId) (adapter : σ) (recoveryTimeout : ℕ) :
    Procedure.Moves SameCore (registerTransport resource adapter recoveryTimeout : Step σ Unit) := by
  refine .bind .get fun s => ?_
  by_cases hdup : s.resources.contains resource = true
  · rw [if_pos hdup]
    exact .stop _
  rw [if_neg hdup]
  by_cases hfull : s.resources.size ≥ maxTransportResources
  · simp only [if_pos hfull]
    exact .stop _
  simp only [if_neg hfull]
  cases ResourceExecutor.withRecoveryTimeout resource recoveryTimeout with
  | error error => exact .stop _
  | ok executor => exact .update fun s => rfl

theorem replaceTransport_keeps (A : ByteTransport σ) (resource : ResourceId) (adapter : σ) (recoveryTimeout : ℕ) :
    Procedure.Moves (Keeps P) (replaceTransport A resource adapter recoveryTimeout : Step σ Unit) := by
  refine .bind .get fun s => ?_
  cases s.resources.get resource with
  | none => exact .stop _
  | some r =>
    dsimp only
    cases checkedAdd r.executor.generation 1 with
    | none => exact .stop _
    | some generation =>
      refine .bind (shutdownTransport_keeps A resource s.transportTime) fun status => ?_
      by_cases hstatus : status ≠ .complete
      · rw [if_pos hstatus]
        exact .stop _
      rw [if_neg hstatus]
      cases ResourceExecutor.replacement resource recoveryTimeout generation with
      | error error => exact .stop _
      | ok executor => exact .update fun s => SameCore.keeps rfl

/-! ### Recording -/

theorem enableRecordingFacts_same : Procedure.Moves SameCore (enableRecordingFacts : Step σ PUnit) :=
  .update fun _ => foldl_sync_core _ _

theorem requireRecording_evolves (h : ¬ P.lasting) : Procedure.Moves (Evolves P) (requireRecording : Step σ PUnit) :=
  .update fun _ => .micro fun _ => .required h

/-- A submission is credited under a gate that is required and has not failed. -/
theorem creditSubmission_evolves (submittedAt now : ℕ)
    (h : Inv P s.core → s.requiredRecording.enabled = true ∧ s.requiredRecording.failed = false) :
    Evolves P s ((creditSubmission submittedAt now).run s).2 := by
  -- unfolded as a function, so that the sum with the constant age is never evaluated
  have hdef : @creditSubmission σ = @creditSubmission σ := rfl
  conv at hdef =>
    rhs
    delta creditSubmission
  rw [hdef]
  beta_reduce
  cases hdeadline : durationAdd submittedAt requiredProgressAge with
  | none => exact refl_of (Evolves P) s
  | some deadline =>
    obtain ⟨heq, -⟩ := durationAdd_eq_some.1 hdeadline
    by_cases hlate : now ≥ deadline
    · simp only [if_pos hlate]
      exact recordingFailure_evolves s now
    · simp only [if_neg hlate]
      refine .micro fun hinv => ?_
      have hmove : Micro P s.core _ := @Micro.credited P s.core submittedAt (h hinv).1 (h hinv).2
      rw [← heq] at hmove
      exact hmove

theorem confirmRecordingStart_evolves (submittedAt now : ℕ) :
    Procedure.Moves (Evolves P) (confirmRecordingStart submittedAt now : Step σ Unit) := by
  intro s
  unfold confirmRecordingStart
  rw [Procedure.run_get_bind]
  by_cases hclosed : (!s.requiredRecording.enabled || s.requiredRecording.failed || decide (submittedAt > now)) = true
  · simp only [if_pos hclosed]
    exact refl_of (Evolves P) s
  · simp only [if_neg hclosed]
    refine creditSubmission_evolves submittedAt now fun _ => ?_
    simp only [Bool.or_eq_true, not_or, Bool.not_eq_true, Bool.not_eq_false'] at hclosed
    exact hclosed.1

theorem confirmRecordingProgress_evolves (submittedAt now : ℕ) :
    Procedure.Moves (Evolves P) (confirmRecordingProgress submittedAt now : Step σ Unit) := by
  refine .bind (.update fun s => serviceRequiredRecordingDeadline_evolves s now) fun _ => fun s => ?_
  rw [Procedure.run_get_bind]
  by_cases hclosed : (!s.requiredRecording.isOpen || decide (submittedAt > now) ||
      s.requiredRecording.confirmedSubmission.any (fun old => decide (submittedAt ≤ old))) = true
  · simp only [if_pos hclosed]
    exact refl_of (Evolves P) s
  · simp only [if_neg hclosed]
    refine creditSubmission_evolves submittedAt now fun hinv => ?_
    simp only [Bool.or_eq_true, not_or, Bool.not_eq_true, Bool.not_eq_false'] at hclosed
    exact ⟨(hinv.gate hclosed.1.1).1, (hinv.gate hclosed.1.1).2.1⟩

theorem closeRequiredRecording_evolves : Procedure.Moves (Evolves P) (closeRequiredRecording : Step σ PUnit) := by
  refine .update fun s => ?_
  split_ifs
  · exact .micro fun _ => .closed
  · exact refl_of (Evolves P) s

/-! ### Controllers -/

theorem capturing_evolves {id : ControllerId} {now : ℕ} {command : Step σ Unit}
    (h : Procedure.Moves (Evolves P) command) : Procedure.Moves (Evolves P) (capturing id now command) := by
  refine .bind (fun s => ?_) fun _ => .bind h fun _ => moves_evolves (moves_keeps (captureControllerFact_same id now))
  rw [rejectPreparedControllerMutation_run]
  exact refl_of (Evolves P) s

/-- A controller call that needs an open gate. -/
theorem gated_evolves {α : Type} {now : ℕ} {rest : Step σ α} (h : ∀ s : Runtime σ, s.Ready → Evolves P s (rest.run s).2) :
    Procedure.Moves (Evolves P) (do
      requireRecordingOpen now
      rest : Step σ α) := fun s hinv => by
  refine Procedure.Moves.bind_at (R := Evolves P) (requireRecordingOpen_evolves now s) (fun u s₁ hrun => h s₁ ?_) hinv
  obtain ⟨-, hpasses⟩ := requireRecordingOpen_ok hinv hrun
  exact hpasses.ready

theorem tick_evolves (id : ControllerId) (loop : LoopAnswers) (now : ℕ) :
    Procedure.Moves (Evolves P) (tick id loop now : Step σ Unit) := by
  refine .bind (fun s => ?_) fun _ => gated_evolves fun s hready => ?_
  · rw [rejectPreparedControllerMutation_run]
    exact refl_of (Evolves P) s
  · refine Procedure.Moves.bind_from (R := Evolves P) ?_ fun result =>
      .bind (moves_evolves (moves_keeps (captureControllerFact_same id now))) fun _ => attempt_keeps result
    rw [trying_snd]
    exact tickController_evolves id loop now hready

theorem failDependent_keeps (id : ControllerId) (now : ℕ) :
    Procedure.Moves (Keeps P) (failDependent id now : Step σ Unit) := by
  intro s
  refine known_bind fun x hget => ?_
  by_cases hdead : x.state.live = false
  · rw [if_pos hdead]
    exact refl_of (Keeps P) s
  rw [if_neg hdead, Procedure.run_modify_bind]
  have hdrop : Keeps P s { s with controllers := s.controllers.remove id } := .micro rfl fun _ => .dropped
  have hown : ∀ l', x.lease = some l' → ∃ l e, x.lease = some l ∧ l' = { l with expires := e } :=
    fun l' hl' => ⟨l', l'.expires, hl', rfl⟩
  by_cases hwarm : x.state = .warming
  · simp only [if_pos hwarm, if_neg (not_not.2 hwarm)]
    exact Keeps.store (x := x) (y := { x with state := .failed }) hdrop
      (fun hinv => ⟨(registered hget hinv).1, (registered hget hinv).2.1, fun hlive => by cases hlive⟩) rfl hown
  · simp only [if_neg hwarm, if_pos hwarm]
    have hignored := ignoring_moves (failController_keeps (P := P) x now) { s with controllers := s.controllers.remove id }
    obtain ⟨e, s₁, hrun, heq⟩ | ⟨u, s₁, hrun, heq⟩ := Procedure.bind_cases (ignoring (failController x now)) _
      ({ s with controllers := s.controllers.remove id } : Runtime σ)
    · rw [hrun] at hignored
      rw [heq]
      exact trans_of (Keeps P) hdrop hignored
    · rw [hrun] at hignored
      rw [heq]
      exact Keeps.store (x := x) (y := x.fail) (trans_of (Keeps P) hdrop hignored)
        (fun hinv => ⟨(registered hget hinv).1, (registered hget hinv).2.1, fun hlive => by cases hlive⟩) rfl
        fun l' hl' => by cases hl'

/-! ### Every call -/

theorem discarding_moves {α : Type} {R : Runtime σ → Runtime σ → Prop} [Std.Refl R] [IsTrans (Runtime σ) R] {x : Step σ α}
    (h : Procedure.Moves R x) : Procedure.Moves R (discarding x) := .bind h fun _ => .pure _

/-- The premises of a run that bear on one call. -/
def Permitted (P : Premises) (s : Runtime σ) : Op σ → Prop
  | .output _ command now => s.Allows P command now
  | .manualOutput k _ _ _ command _ => P.native k → ∀ value ttl, command ≠ .write value ttl
  | .requireRecording => ¬ P.lasting
  | _ => True

/-- Every call is a path of moves. -/
theorem step_evolves (A : ByteTransport σ) (s : Runtime σ) (op : Op σ) (h : s.Permitted P op) :
    Evolves P s (step A s op) := by
  have hsame : ∀ {x : Step σ Unit}, Procedure.Moves SameCore x → Evolves P s (x.run s).2 := fun h => (h s).evolves
  have hkeeps : ∀ {x : Step σ Unit}, Procedure.Moves (Keeps P) x → Evolves P s (x.run s).2 := fun h => (h s).2
  cases op with
  | output actuator command now =>
    show Evolves P s ((discarding (output actuator command now)).run s).2
    unfold discarding
    rw [Procedure.run_bind_pure]
    exact output_evolves h
  | manualOutput actuator owner expectedInstance expectedEpoch command now =>
    exact manualOutput_evolves owner expectedInstance expectedEpoch h s
  | registerVirtual instrument heater => exact hkeeps (registerVirtual_keeps instrument heater)
  | registerThermalPlant plant => exact hkeeps (registerThermalPlant_keeps plant)
  | registerMetakon config => exact hkeeps (registerMetakon_keeps config)
  | registerSimpleDevice config prepared => exact hkeeps (registerSimpleDevice_keeps config prepared)
  | publishPreparedSimpleDevices instruments => exact hsame (publishPreparedSimpleDevices_same instruments)
  | discardPreparedSimpleDevices instruments => exact hkeeps (discardPreparedSimpleDevices_keeps instruments)
  | registerController config algorithmsValid => exact hkeeps (registerController_keeps config algorithmsValid)
  | configureControllerPid id pid expectedRevision algorithmsValid =>
    exact hkeeps (configureControllerPid_keeps id pid expectedRevision algorithmsValid)
  | reconfigureController id config expectedRevision algorithmsValid referenceUnit =>
    exact hkeeps (reconfigureController_keeps id config expectedRevision algorithmsValid referenceUnit)
  | prepareController id referenceUnit => exact hkeeps (prepareController_keeps id referenceUnit)
  | startController id loop now =>
    exact capturing_evolves (gated_evolves fun s hready => startOrResumeController_evolves id loop now .ready hready) s
  | resumeController id loop now =>
    exact capturing_evolves (gated_evolves fun s hready => startOrResumeController_evolves id loop now .paused hready) s
  | tickController id loop now => exact tick_evolves id loop now s
  | pauseController id now => exact capturing_evolves (pauseController_evolves id now) s
  | resetFailedController id now => exact capturing_evolves (resetFailedController_evolves id now) s
  | queueMetakonRead instrument parameter now queueTtl timeout =>
    exact hsame (discarding_moves (queueMetakonRead_same instrument parameter now queueTtl timeout))
  | queueSimpleDeviceRead instrument parameter now queueTtl timeout =>
    exact hsame (discarding_moves (queueSimpleDeviceRead_same instrument parameter now queueTtl timeout))
  | queueMetakonOutput actuator now queueTtl timeout =>
    exact hkeeps (discarding_moves (queueMetakonOutput_keeps actuator now queueTtl timeout))
  | pollTransports now => exact pollTransports_evolves A now s
  | serviceSafety now => exact serviceSafety_evolves A now s
  | rebindMetakon instrument binding now => exact hkeeps (rebindMetakon_keeps instrument binding now)
  | rebindSimpleDevice instrument binding now => exact hkeeps (rebindSimpleDevice_keeps instrument binding now)
  | reconfigureMetakon config expectedGeneration expectedRevision now =>
    exact hkeeps (reconfigureMetakon_keeps config expectedGeneration expectedRevision now)
  | renameInstrument instrument name => exact hsame (renameInstrument_same instrument name)
  | registerTransport resource adapter recoveryTimeout =>
    exact hsame (registerTransport_same resource adapter recoveryTimeout)
  | replaceTransport resource adapter recoveryTimeout =>
    exact hkeeps (replaceTransport_keeps A resource adapter recoveryTimeout)
  | shutdownTransport resource now => exact hkeeps (discarding_moves (shutdownTransport_keeps A resource now))
  | enableRecordingFacts => exact hsame enableRecordingFacts_same
  | disableRecordingFacts => exact hsame (record_same _)
  | takeRecordingFacts => exact hsame (record_same _)
  | requireRecording => exact requireRecording_evolves h s
  | confirmRecordingStart submittedAt now => exact confirmRecordingStart_evolves submittedAt now s
  | confirmRecordingProgress submittedAt now => exact confirmRecordingProgress_evolves submittedAt now s
  | recordingFailure now => exact recordingFailure_evolves s now
  | closeRequiredRecording => exact closeRequiredRecording_evolves s
  | nativeWork work => exact SameCore.evolves rfl
  | checkOutputTime now => exact hkeeps (checkOutputTime_keeps now)
  | pauseDependent id now => exact pauseController_evolves id now s
  | failDependent id now => exact hkeeps (failDependent_keeps id now)

/-- A run whose calls all meet the premises. -/
def Permits (P : Premises) (A : ByteTransport σ) (ops : List (Op σ)) : Prop :=
  History.Hitherto (fun before op => (run A before).Permitted P op) ops

theorem run_snoc (A : ByteTransport σ) (ops : List (Op σ)) (op : Op σ) : run A (ops ++ [op]) = step A (run A ops) op :=
  List.foldl_concat _ _ _ _

/-- Every owner that calls reach holds the invariant. -/
theorem run_inv (A : ByteTransport σ) (ops : List (Op σ)) (h : Permits P A ops) : Inv P (run A ops).core := by
  induction ops using List.reverseRecOn with
  | nil => exact Core.inv_empty σ
  | append_singleton ops op ih =>
    obtain ⟨hbefore, hop⟩ := History.hitherto_snoc.1 h
    rw [run_snoc]
    exact (step_evolves A _ op hop).inv (ih hbefore)

end LabRuntime.Runtime
