import LabRuntime.Deployment.Frozen

/-! What the structural check has established of a document that passed, and which rows may take the place
of others in one. -/

namespace LabRuntime.Deployment

open LabRuntime

theorem refuse_ok {bad : Prop} [Decidable bad] {reason : String} {u : Unit} : refuse bad reason = .ok u ↔ ¬ bad :=
  Checks.reject_ok

/-! ### The parts of the check -/

theorem validateStructure_ok {dto : DeploymentDto} :
    validateStructure dto = .ok () ↔
      checkDocument dto = .ok () ∧ (∃ seen, dto.resources.foldlM checkResource Seen.none = .ok seen) ∧
        ∃ seen managed, dto.instruments.foldlM (checkInstrument dto.resources) Seen.none = .ok seen ∧
          checkSharing dto.resources (dto.instruments.map InstrumentDto.head) = .ok () ∧
          dto.managedComponents.foldlM (checkComponent seen.ids) ⟨[], OrderedMap.empty⟩ = .ok managed ∧
          checkInputs seen.ids (dto.managedComponents.map ManagedComponentDto.head) managed.inputs = .ok () ∧
          checkControl dto (dto.instruments.map InstrumentDto.head) (dto.managedComponents.map ManagedComponentDto.head)
            (managed.inputs.keys ++ seen.ids) = .ok () := by
  simp only [validateStructure, Checks.bind_ok]
  constructor
  · rintro ⟨_, hdocument, _, hresources, seen, hinstruments, _, hsharing, managed, hcomponents, _, hinputs, hcontrol⟩
    exact ⟨hdocument, ⟨_, hresources⟩, seen, managed, hinstruments, hsharing, hcomponents, hinputs, hcontrol⟩
  · rintro ⟨hdocument, ⟨_, hresources⟩, seen, managed, hinstruments, hsharing, hcomponents, hinputs, hcontrol⟩
    exact ⟨(), hdocument, _, hresources, seen, hinstruments, (), hsharing, managed, hcomponents, (), hinputs, hcontrol⟩

/-- The other tables see instruments and components by their heads only. -/
theorem checkDocument_congr {dto : DeploymentDto} {instruments : List InstrumentDto} {components : List ManagedComponentDto}
    (hinstruments : instruments.map InstrumentDto.head = dto.instruments.map InstrumentDto.head)
    (hcomponents : components.map ManagedComponentDto.head = dto.managedComponents.map ManagedComponentDto.head) :
    checkDocument { dto with instruments := instruments, managedComponents := components } = checkDocument dto := by
  have hcount : instruments.countP (·.kind = .simpleDevice) = dto.instruments.countP (·.kind = .simpleDevice) := by
    have h := congrArg (List.countP fun head : InstrumentHead => head.kind = .simpleDevice) hinstruments
    rw [List.countP_map, List.countP_map] at h
    exact h
  have hlength : instruments.length = dto.instruments.length := by simpa using congrArg List.length hinstruments
  have hcomponents : components.length = dto.managedComponents.length := by simpa using congrArg List.length hcomponents
  simp only [checkDocument, hcount, hlength, hcomponents]

/-- Rows that pass wherever those of an accepted document do, and look the same to the other tables, may replace them. -/
theorem validateStructure_replace {dto : DeploymentDto} {instruments : List InstrumentDto} {components : List ManagedComponentDto}
    (h : validateStructure dto = .ok ())
    (hheads : instruments.map InstrumentDto.head = dto.instruments.map InstrumentDto.head)
    (hmanaged : components.map ManagedComponentDto.head = dto.managedComponents.map ManagedComponentDto.head)
    (hinstruments : ∀ s s', dto.instruments.foldlM (checkInstrument dto.resources) s = .ok s' →
      instruments.foldlM (checkInstrument dto.resources) s = .ok s')
    (hcomponents : ∀ ids s s', dto.managedComponents.foldlM (checkComponent ids) s = .ok s' →
      components.foldlM (checkComponent ids) s = .ok s') :
    validateStructure { dto with instruments := instruments, managedComponents := components } = .ok () := by
  obtain ⟨hdocument, hresources, seen, managed, hrows, hsharing, hcomponentRows, hinputs, hcontrol⟩ := validateStructure_ok.1 h
  refine validateStructure_ok.2 ⟨?_, hresources, seen, managed, hinstruments _ _ hrows, ?_, hcomponents _ _ _ hcomponentRows, ?_, ?_⟩
  · rw [checkDocument_congr hheads hmanaged, hdocument]
  · rw [hheads]
    exact hsharing
  · rw [hmanaged]
    exact hinputs
  · rw [hheads, hmanaged]
    exact hcontrol

/-! ### Rows of an accepted document -/

theorem checkInstrument_ok {resources : List ResourceDto} {seen seen' : Seen} {i : InstrumentDto} :
    checkInstrument resources seen i = .ok seen' ↔
      validateNonzero i.id "instrument id" = .ok () ∧ validateKey i.key = .ok () ∧ ¬ (i.id ∈ seen.ids ∨ i.key ∈ seen.keys) ∧
        checkFields resources i = .ok () ∧ seen' = ⟨i.id :: seen.ids, i.key :: seen.keys, seen.ports⟩ := by
  simp only [checkInstrument, Checks.bind_ok, refuse_ok, Checks.pure_ok]
  constructor
  · rintro ⟨_, hid, _, hkey, _, hnew, _, hfields, rfl⟩
    exact ⟨hid, hkey, hnew, hfields, rfl⟩
  · rintro ⟨hid, hkey, hnew, hfields, rfl⟩
    exact ⟨(), hid, (), hkey, (), hnew, (), hfields, rfl⟩

/-- A row that looks the same to the other tables passes in the place of another, when its own fields do. -/
theorem checkInstrument_replace {resources : List ResourceDto} {seen seen' : Seen} {i i' : InstrumentDto} (hhead : i'.head = i.head)
    (hfields : checkFields resources i' = .ok ()) (h : checkInstrument resources seen i = .ok seen') :
    checkInstrument resources seen i' = .ok seen' := by
  obtain ⟨hid, hkey, hnew, -, hseen⟩ := checkInstrument_ok.1 h
  have hid' : i'.id = i.id := congrArg InstrumentHead.id hhead
  have hkey' : i'.key = i.key := congrArg InstrumentHead.key hhead
  rw [checkInstrument_ok, hid', hkey']
  exact ⟨hid, hkey, hnew, hfields, hseen⟩

theorem checkFields_virtual {resources : List ResourceDto} {v : VirtualMeasurementDto} :
    checkFields resources (.virtualMeasurement v) = .ok () ↔
      validateDisplayName v.displayName = .ok () ∧ validateHistory v.historyCapacity = .ok () ∧
        (v.baseTemperature.isFinite = true ∧ F64.ofInt (-100) ≤ v.baseTemperature ∧ v.baseTemperature ≤ F64.ofInt 100) ∧
        validatePeriod v.pollPeriodMs "poll period" = .ok () := by
  simp only [checkFields, Checks.then_ok, refuse_ok, not_or, Bool.not_eq_false, not_not]

theorem checkFields_plant {resources : List ResourceDto} {t : ThermalPlantDto} :
    checkFields resources (.thermalPlant t) = .ok () ↔
      validateDisplayName t.displayName = .ok () ∧ validateHistory t.historyCapacity = .ok () ∧
        (t.ambientTemperature.isFinite = true ∧ t.initialTemperature.isFinite = true ∧ t.gainPerPercent.isFinite = true ∧
          ¬ t.gainPerPercent ≤ F64.zero ∧ t.timeConstantMs ≠ 0) ∧
        validatePeriod t.pollPeriodMs "poll period" = .ok () := by
  simp only [checkFields, Checks.then_ok, refuse_ok, not_or, Bool.not_eq_false]

theorem checkFields_metakon {resources : List ResourceDto} {m : MetakonDto} :
    checkFields resources (.metakon m) = .ok () ↔
      m.resourceId ∈ resources.map ResourceDto.id ∧ (1 ≤ m.address ∧ m.address ≤ 247) ∧
        validatePeriod m.pollPeriodMs "poll period" = .ok () ∧ validateTransactionTime m.queueTimeoutMs "queue timeout" = .ok () ∧
        validateTransactionTime m.transactionTimeoutMs "transaction timeout" = .ok () := by
  simp only [checkFields, Checks.then_ok, refuse_ok, not_not]

theorem checkFields_simple {resources : List ResourceDto} {s : SimpleDeviceDto} :
    checkFields resources (.simpleDevice s) = .ok () ↔
      validateDisplayName s.displayName = .ok () ∧ eligibleResource resources s.resourceId = .ok () ∧
        (10 ≤ s.pollPeriodMs ∧ s.pollPeriodMs ≤ 60000) ∧
        ((1 ≤ s.queueTimeoutMs ∧ s.queueTimeoutMs ≤ 2000) ∧ (1 ≤ s.transactionTimeoutMs ∧ s.transactionTimeoutMs ≤ 2000)) ∧
        validateHistory s.historyCapacity = .ok () := by
  simp only [checkFields, Checks.then_ok, refuse_ok, not_or, not_not]

/-- The loop meets no identity twice. -/
theorem instruments_nodup {resources : List ResourceDto} {instruments : List InstrumentDto} {seen seen' : Seen}
    (h : instruments.foldlM (checkInstrument resources) seen = .ok seen') :
    (instruments.map InstrumentDto.id).Nodup ∧ ∀ i ∈ instruments, i.id ∉ seen.ids := by
  induction instruments generalizing seen with
  | nil => simp
  | cons i instruments ih =>
    rw [List.foldlM_cons] at h
    obtain ⟨_, hrow, h⟩ := Checks.bind_ok.1 h
    obtain ⟨_, _, hnew, _, rfl⟩ := checkInstrument_ok.1 hrow
    obtain ⟨hnodup, hfresh⟩ := ih h
    refine ⟨List.nodup_cons.2 ⟨?_, hnodup⟩, ?_⟩
    · intro hmem
      obtain ⟨j, hj, heq⟩ := List.mem_map.1 hmem
      exact hfresh j hj (heq ▸ List.mem_cons_self)
    · intro j hj
      rcases List.mem_cons.1 hj with rfl | hj
      · exact fun hmem => hnew (.inl hmem)
      · exact fun hmem => hfresh j hj (List.mem_cons_of_mem _ hmem)

theorem checkComponent_ok {ids : List ℕ} {seen seen' : ManagedSeen} {c : ManagedComponentDto} :
    checkComponent ids seen c = .ok seen' ↔
      validateNonzero c.id "component id" = .ok () ∧ validateNonzero c.instrumentId "component instrument id" = .ok () ∧
        validateKey c.key = .ok () ∧ validateDisplayName c.displayName = .ok () ∧
        validatePeriod c.periodMs "component period" = .ok () ∧ implementationIdValid c.implementation = true ∧
        componentPropertyMetadata c.implementation ≠ [] ∧
        c.validatePropertyShape (componentPropertyMetadata c.implementation) = .ok () ∧
        (∃ config, c.plainConfig = .ok config ∧
          ∃ definition, buildComponentDefinition c.implementation (c.native config) = .ok definition) ∧
        ¬ (c.id ∈ seen.ids ∨ c.instrumentId ∈ ids ∨ seen.inputs.contains c.instrumentId = true) ∧
        seen' = ⟨c.id :: seen.ids, seen.inputs.insert c.instrumentId c.inputInstrumentId⟩ := by
  have hbuild : ∀ config : PlainData F64, ((validateComponentConfiguration c.implementation (c.native config)).mapError fun _ =>
      ConfigurationError.invalid "invalid managed implementation configuration") = .ok () ↔
      ∃ definition, buildComponentDefinition c.implementation (c.native config) = .ok definition := by
    intro config
    unfold validateComponentConfiguration
    cases buildComponentDefinition c.implementation (c.native config) with
    | error _ => simp [Except.map, Except.mapError]
    | ok definition => exact ⟨fun _ => ⟨definition, rfl⟩, fun _ => rfl⟩
  simp only [checkComponent, Checks.bind_ok, refuse_ok, Checks.pure_ok, hbuild, Bool.not_eq_false]
  constructor
  · rintro ⟨_, h1, _, h2, _, h3, _, h4, _, h5, _, h6, _, h7, _, h8, config, h9, _, h10, _, h11, rfl⟩
    exact ⟨h1, h2, h3, h4, h5, h6, h7, h8, ⟨config, h9, h10⟩, h11, rfl⟩
  · rintro ⟨h1, h2, h3, h4, h5, h6, h7, h8, ⟨config, h9, h10⟩, h11, rfl⟩
    exact ⟨(), h1, (), h2, (), h3, (), h4, (), h5, (), h6, (), h7, (), h8, config, h9, (), h10, (), h11, rfl⟩

theorem components_nodup {ids : List ℕ} {components : List ManagedComponentDto} {seen seen' : ManagedSeen}
    (h : components.foldlM (checkComponent ids) seen = .ok seen') :
    (components.map ManagedComponentDto.id).Nodup ∧ ∀ c ∈ components, c.id ∉ seen.ids := by
  induction components generalizing seen with
  | nil => simp
  | cons c components ih =>
    rw [List.foldlM_cons] at h
    obtain ⟨_, hrow, h⟩ := Checks.bind_ok.1 h
    obtain ⟨_, _, _, _, _, _, _, _, _, hnew, rfl⟩ := checkComponent_ok.1 hrow
    obtain ⟨hnodup, hfresh⟩ := ih h
    refine ⟨List.nodup_cons.2 ⟨?_, hnodup⟩, ?_⟩
    · intro hmem
      obtain ⟨d, hd, heq⟩ := List.mem_map.1 hmem
      exact hfresh d hd (heq ▸ List.mem_cons_self)
    · intro d hd
      rcases List.mem_cons.1 hd with rfl | hd
      · exact fun hmem => hnew (.inl hmem)
      · exact fun hmem => hfresh d hd (List.mem_cons_of_mem _ hmem)

/-! ### Tables that equal themselves -/

theorem list_beq_self {α : Type} [BEq α] {xs : List α} (h : ∀ x ∈ xs, (x == x) = true) : (xs == xs) = true := by
  induction xs with
  | nil => rfl
  | cons x xs ih =>
    show (x == x && xs == xs) = true
    rw [h x List.mem_cons_self, ih fun y hy => h y (List.mem_cons_of_mem _ hy)]
    rfl

theorem finite_beq_self {x : F64} (h : ¬ x.isFinite = false) : (x == x) = true :=
  F64.beq_self (F64.isNan_of_isFinite (Bool.not_eq_false _ ▸ h))

theorem checkReference_beq {r : ReferenceDto} (h : checkReference r = .ok ()) : (r == r) = true := by
  simp only [checkReference, Checks.bind_ok] at h
  obtain ⟨_, -, _, -, _, hvalue, h⟩ := h
  have hvalue := finite_beq_self (refuse_ok.1 hvalue)
  have hoptions : (r.target == r.target) = true ∧ (r.rate == r.rate) = true := by
    unfold checkReferenceKind at h
    split at h
    · have h := refuse_ok.1 h
      rw [not_or, Option.not_isSome_iff_eq_none, Option.not_isSome_iff_eq_none] at h
      rw [h.1, h.2]
      exact ⟨rfl, rfl⟩
    next target rate _ htarget hrate =>
      have h := refuse_ok.1 h
      rw [not_or, not_or] at h
      rw [htarget, hrate]
      exact ⟨finite_beq_self h.1, finite_beq_self h.2.1⟩
    · exact absurd h (by simp)
  show instBEqReferenceDto.beq r r = true
  cases r
  simp_all [instBEqReferenceDto.beq]

theorem checkController_beq {context : ControlContext} {seen seen' : Seen} {c : ControllerDto}
    (h : checkController context seen c = .ok seen') : (c == c) = true := by
  simp only [checkController, Checks.bind_ok] at h
  obtain ⟨_, -, _, -, _, -, _, -, _, -, _, -, _, -, _, -, _, -, _, -, _, -, _, -, _, -, _, -, _, -, _, hpid, -⟩ := h
  have h := refuse_ok.1 hpid
  simp only [not_or] at h
  have hkp := finite_beq_self h.1
  have hki := finite_beq_self h.2.1
  have hkd := finite_beq_self h.2.2.1
  have hmin := finite_beq_self h.2.2.2.1
  have hmax := finite_beq_self h.2.2.2.2.1
  show instBEqControllerDto.beq c c = true
  cases c
  simp_all [instBEqControllerDto.beq]

theorem checkSafeProfile_beq {instruments : List InstrumentHead} {ids : List ℕ} {safe : SafeProfileDto}
    (h : checkSafeProfile instruments ids safe = .ok ()) : (safe == safe) = true := by
  simp only [checkSafeProfile, Checks.bind_ok] at h
  obtain ⟨_, -, _, -, _, -, _, hvalues, -⟩ := h
  have h := refuse_ok.1 hvalues
  simp only [not_or] at h
  have hmin := finite_beq_self h.1
  have hmax := finite_beq_self h.2.1
  have hsafe := finite_beq_self h.2.2.1
  show instBEqSafeProfileDto.beq safe safe = true
  cases safe
  simp_all [instBEqSafeProfileDto.beq]

end LabRuntime.Deployment
