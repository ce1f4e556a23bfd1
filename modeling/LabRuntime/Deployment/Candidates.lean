import LabRuntime.Deployment.OwnerRows

/-! A candidate that differs from an accepted deployment in one row: when it is accepted, and how it is classified. -/

namespace LabRuntime.Deployment

open LabRuntime

namespace FrozenDeployment

/-- Another document beside the same artifacts. -/
def withDocument (d : FrozenDeployment) (tomlBytes tomlHash : List UInt8) (dto : DeploymentDto) : FrozenDeployment :=
  { d with tomlBytes := tomlBytes, tomlHash := tomlHash, dto := dto }

variable {d : FrozenDeployment} {outside : Outside}

theorem check_ok : d.check outside = .ok () ↔
    validateStructure d.dto = .ok () ∧ validateFrozenMetakonDefinitions outside d.dto d.base d.artifacts = .ok () ∧
      validateFrozenSimpleDefinitions d.dto d.base d.simpleDefinitions = .ok () := by
  simp only [check, Checks.then_ok]

theorem accept_ok : d.accept outside = .ok () ↔ d.WithinLimits ∧ d.check outside = .ok () := by
  simp only [accept, Checks.then_ok, Checks.reject_ok, not_not]

end FrozenDeployment

/-! ### Acceptance -/

section Acceptance

variable {outside : Outside} {d : FrozenDeployment} {tomlBytes tomlHash : List UInt8}

/-- The structural check has checked the fields of every instrument. -/
theorem checkFields_of_accepted {dto : DeploymentDto} (h : validateStructure dto = .ok ()) {i : InstrumentDto}
    (hi : i ∈ dto.instruments) : checkFields dto.resources i = .ok () := by
  obtain ⟨_, _, _, _, hrows, _⟩ := validateStructure_ok.1 h
  obtain ⟨_, _, hrow⟩ := Checks.foldlM_visits hrows i hi
  exact (checkInstrument_ok.1 hrow).2.2.2.1

theorem window_of_accepted {dto : DeploymentDto} (h : validateStructure dto = .ok ()) {c : ManagedComponentDto}
    (hc : c ∈ dto.managedComponents) : ∃ window, HasWindow c window := by
  obtain ⟨_, _, _, _, _, _, hrows, _⟩ := validateStructure_ok.1 h
  obtain ⟨_, _, hrow⟩ := Checks.foldlM_visits hrows c hc
  exact checkComponent_window hrow

/-- The edited instrument's own fields decide about the candidate. -/
theorem check_instrument {value : PropertyValue} {i i' : InstrumentDto} {property : String} {c : MutationClass}
    (h : RowEdit value i property c i') {before after : List InstrumentDto} (hd : d.dto.instruments = before ++ i :: after)
    (hcheck : d.check outside = .ok ()) :
    (d.withDocument tomlBytes tomlHash { d.dto with instruments := before ++ i' :: after }).check outside = .ok () ↔
      checkFields d.dto.resources i' = .ok () := by
  obtain ⟨hstructure, hmetakon, hsimple⟩ := FrozenDeployment.check_ok.1 hcheck
  constructor
  · intro hnew
    exact checkFields_of_accepted (FrozenDeployment.check_ok.1 hnew).1 (List.mem_append_right _ List.mem_cons_self)
  · intro hfields
    have hheads : (before ++ i' :: after).map InstrumentDto.head = d.dto.instruments.map InstrumentDto.head := by
      rw [hd]
      simp [h.head_eq]
    refine FrozenDeployment.check_ok.2 ⟨?_, ?_, ?_⟩
    · refine validateStructure_replace hstructure hheads rfl ?_ (fun _ _ _ hrows => hrows)
      intro s s' hrows
      rw [hd] at hrows
      exact Checks.foldlM_replace (fun _ _ hrow => checkInstrument_replace h.head_eq hfields hrow) hrows
    · refine Checks.forM_ok.2 fun j hj => ?_
      rcases List.mem_append.1 hj with hj | hj
      · exact Checks.forM_ok.1 hmetakon j (hd ▸ List.mem_append_left _ hj)
      · rcases List.mem_cons.1 hj with rfl | hj
        · rw [h.metakon_eq]
          exact Checks.forM_ok.1 hmetakon i (hd ▸ List.mem_append_right _ List.mem_cons_self)
        · exact Checks.forM_ok.1 hmetakon j (hd ▸ List.mem_append_right _ (List.mem_cons_of_mem _ hj))
    · obtain ⟨seen, hrows, hcorrelations⟩ := Checks.bind_ok.1 hsimple
      refine Checks.bind_ok.2 ⟨seen, ?_, hcorrelations⟩
      rw [hd] at hrows
      refine Checks.foldlM_replace (fun s s' hrow => ?_) hrows
      rw [← hrow]
      exact h.simple_eq _ _ _ _ _ _ _

/-- A component that looks the same to the other tables, and passes where the old one did. -/
theorem check_component {before after : List ManagedComponentDto} {c c' : ManagedComponentDto} (hhead : c'.head = c.head)
    (hd : d.dto.managedComponents = before ++ c :: after) (hcheck : d.check outside = .ok ())
    (hrow : ∀ ids s s', checkComponent ids s c = .ok s' → checkComponent ids s c' = .ok s') :
    (d.withDocument tomlBytes tomlHash { d.dto with managedComponents := before ++ c' :: after }).check outside = .ok () := by
  obtain ⟨hstructure, hmetakon, hsimple⟩ := FrozenDeployment.check_ok.1 hcheck
  have hheads : (before ++ c' :: after).map ManagedComponentDto.head = d.dto.managedComponents.map ManagedComponentDto.head := by
    rw [hd]
    simp [hhead]
  refine FrozenDeployment.check_ok.2 ⟨?_, hmetakon, hsimple⟩
  refine validateStructure_replace hstructure rfl hheads (fun _ _ hrows => hrows) ?_
  intro ids s s' hrows
  rw [hd] at hrows
  exact Checks.foldlM_replace (hrow ids) hrows

end Acceptance

/-! ### Classification -/

theorem component_beq_self {c : ManagedComponentDto} {window : ℤ} (h : HasWindow c window) : (c == c) = true := by
  show (c.id == c.id && c.instrumentId == c.instrumentId && c.key == c.key && c.displayName == c.displayName &&
    c.implementation == c.implementation && c.config.entries == c.config.entries &&
    c.inputInstrumentId == c.inputInstrumentId && c.periodMs == c.periodMs) = true
  have hvalue : (TomlValue.integer window == TomlValue.integer window) = true := by
    show (window == window) = true
    simp
  have hentries : (c.config.entries == c.config.entries) = true := by
    rw [h.entries]
    refine list_beq_self fun entry hentry => ?_
    rw [List.mem_singleton.1 hentry]
    show (MovingMean.windowField == MovingMean.windowField && TomlValue.integer window == TomlValue.integer window) = true
    rw [hvalue]
    simp
  simp [hentries]

/-- The tables of an accepted document are found to be what they are. -/
structure Comparable (dto : DeploymentDto) : Prop where
  references : (dto.references != dto.references) = false
  controllers : (dto.controllers != dto.controllers) = false
  safeProfiles : (dto.safeProfiles != dto.safeProfiles) = false
  components : (dto.managedComponents != dto.managedComponents) = false

theorem bne_of_beq {α : Type} [BEq α] {a : α} (h : (a == a) = true) : (a != a) = false := by
  rw [bne, h]
  rfl

theorem comparable_of_accepted {dto : DeploymentDto} (h : validateStructure dto = .ok ()) : Comparable dto := by
  obtain ⟨_, _, seen, managed, _, _, _, _, hcontrol⟩ := validateStructure_ok.1 h
  unfold checkControl at hcontrol
  obtain ⟨hreferences, hcontrol⟩ := Checks.then_ok.1 hcontrol
  obtain ⟨-, hcontrol⟩ := Checks.then_ok.1 hcontrol
  obtain ⟨hsafe, hcontrol⟩ := Checks.then_ok.1 hcontrol
  obtain ⟨_, hcontrollers, -⟩ := Checks.bind_ok.1 hcontrol
  unfold checkReferences at hreferences
  obtain ⟨-, hreferences⟩ := Checks.then_ok.1 hreferences
  obtain ⟨-, hreferences⟩ := Checks.then_ok.1 hreferences
  refine ⟨bne_of_beq ?_, bne_of_beq ?_, bne_of_beq ?_, bne_of_beq ?_⟩
  · exact list_beq_self fun r hr => checkReference_beq (Checks.forM_ok.1 hreferences r hr)
  · refine list_beq_self fun c hc => ?_
    obtain ⟨_, _, hrow⟩ := Checks.foldlM_visits hcontrollers c hc
    exact checkController_beq hrow
  · exact list_beq_self fun safe hmem => checkSafeProfile_beq (Checks.forM_ok.1 hsafe safe hmem)
  · refine list_beq_self fun c hc => ?_
    obtain ⟨_, hwindow⟩ := window_of_accepted h hc
    exact component_beq_self hwindow

theorem recording_bne (r : RecordingDto) : (r != r) = false := by
  refine bne_of_beq ?_
  show instBEqRecordingDto.beq r r = true
  cases r
  simp [instBEqRecordingDto.beq]

section Classification

variable {d : FrozenDeployment} {tomlBytes tomlHash : List UInt8} {display : F64 → String}

theorem changesFrom_instrument {value : PropertyValue} {i i' : InstrumentDto} {property : String} {c : MutationClass}
    (h : RowEdit value i property c i') {before after : List InstrumentDto} (hd : d.dto.instruments = before ++ i :: after)
    (hcomparable : Comparable d.dto) :
    (d.withDocument tomlBytes tomlHash { d.dto with instruments := before ++ i' :: after }).changesFrom display d =
      { restartRequired := false
        liveSafe := tomlHash != d.tomlHash || nameDiffers i i'
        ordinaryLive := periodDiffers i i'
        reinitialization := modelDiffers display i i'
        rebind := false
        controllerRewarm := modelDiffers display i i'
        safeBarrier := modelDiffers display i i' } := by
  have htopology : instrumentTopology { d.dto with instruments := before ++ i' :: after } = instrumentTopology d.dto := by
    have hrow : (i'.id, i'.key, i'.kindName) = (i.id, i.key, i.kindName) :=
      congrArg (fun head : InstrumentHead => (head.id, head.key, head.kind.name)) h.head_eq
    unfold instrumentTopology
    rw [hd]
    simp only [List.map_append, List.map_cons, hrow]
  have hany : ∀ test : InstrumentDto → InstrumentDto → Bool, (∀ x, test x x = false) →
      zipAny test d.dto.instruments (before ++ i' :: after) = test i i' := by
    intro test hself
    rw [hd]
    exact zipAny_replace fun x _ => hself x
  have hresources : resourceTopology { d.dto with instruments := before ++ i' :: after } = resourceTopology d.dto := rfl
  have hdefinitions : definitionIdentities (d.withDocument tomlBytes tomlHash { d.dto with instruments := before ++ i' :: after }) =
      definitionIdentities d := rfl
  unfold FrozenDeployment.changesFrom
  rw [hdefinitions]
  unfold FrozenDeployment.withDocument
  dsimp only
  rw [htopology, hresources, hany _ fun _ => frozenDiffers_self, hany _ fun _ => nameDiffers_self,
    hany _ fun _ => periodDiffers_self, hany _ fun _ => bindingDiffers_self, hany _ fun _ => modelDiffers_self,
    hcomparable.references, hcomparable.controllers, hcomparable.safeProfiles, hcomparable.components, h.frozen_eq, h.binding_eq,
    recording_bne]
  simp [bne_self]

theorem changesFrom_component {before after : List ManagedComponentDto} {c c' : ManagedComponentDto}
    (hd : d.dto.managedComponents = before ++ c :: after) (hcomparable : Comparable d.dto)
    (hne : (d.dto.managedComponents != before ++ c' :: after) = true) :
    (d.withDocument tomlBytes tomlHash { d.dto with managedComponents := before ++ c' :: after }).changesFrom display d =
      { restartRequired := false
        liveSafe := tomlHash != d.tomlHash
        ordinaryLive := false
        reinitialization := true
        rebind := false
        controllerRewarm := true
        safeBarrier := true } := by
  have hlength : (d.dto.managedComponents.length != (before ++ c' :: after).length) = false := by
    rw [hd]
    simp
  have hany : ∀ test : InstrumentDto → InstrumentDto → Bool, (∀ x, test x x = false) →
      zipAny test d.dto.instruments d.dto.instruments = false := fun test hself => zipAny_self fun x _ => hself x
  have htopology : instrumentTopology { d.dto with managedComponents := before ++ c' :: after } = instrumentTopology d.dto := rfl
  have hresources : resourceTopology { d.dto with managedComponents := before ++ c' :: after } = resourceTopology d.dto := rfl
  have hdefinitions : definitionIdentities
      (d.withDocument tomlBytes tomlHash { d.dto with managedComponents := before ++ c' :: after }) = definitionIdentities d := rfl
  unfold FrozenDeployment.changesFrom
  rw [hdefinitions]
  unfold FrozenDeployment.withDocument
  dsimp only
  rw [htopology, hresources, hlength, hne, hany _ fun _ => frozenDiffers_self, hany _ fun _ => nameDiffers_self,
    hany _ fun _ => periodDiffers_self, hany _ fun _ => bindingDiffers_self, hany _ fun _ => modelDiffers_self,
    hcomparable.references, hcomparable.controllers, hcomparable.safeProfiles, recording_bne]
  simp [bne_self]

/-- Each class covers the effects of an edit of its own kind, whether or not the document's hash changed. -/
theorem classified_of_flags (c : MutationClass) (hclass : c ≠ .rebindRequired) (hash : Bool) :
    Classified c
      { restartRequired := false
        liveSafe := hash || c == .liveSafe
        ordinaryLive := c == .ordinaryLive
        reinitialization := c == .reinitialization
        rebind := false
        controllerRewarm := c == .reinitialization
        safeBarrier := c == .reinitialization } := by
  revert hclass
  cases c <;> cases hash <;> decide

end Classification
end LabRuntime.Deployment
