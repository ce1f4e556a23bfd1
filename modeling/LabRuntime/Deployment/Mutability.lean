import LabRuntime.Deployment.Candidates

/-! Advertised mutability against what applying an edit does: the records, the classification, the validator and
Core's rules are four tables over the same fields. -/

namespace LabRuntime.Deployment

open LabRuntime

/-! ### The live apply of an edit -/

namespace Owner

variable {o : Owner} {dto : DeploymentDto}

theorem applyChecks_ok {new : DeploymentDto} : o.applyChecks dto new = .ok () ↔
    (zipAny thermalConfigurationChanged dto.instruments new.instruments = true →
        ∃ o', o.restartConfiguredVirtualModels new.instruments = .ok o') ∧
      (∀ pair ∈ dto.managedComponents.zip new.managedComponents, o.replaceChanged pair = .ok ()) ∧
      ∀ i ∈ new.instruments, o.applyRow i = .ok () := by
  have hrestart : o.restartChanged dto.instruments new.instruments = .ok () ↔
      (zipAny thermalConfigurationChanged dto.instruments new.instruments = true →
        ∃ o', o.restartConfiguredVirtualModels new.instruments = .ok o') := by
    unfold restartChanged
    split_ifs with h
    · simp only [Checks.map_ok, Checks.mapError_ok, and_true, h, forall_true_left]
    · simp [h]
  simp only [applyChecks, Checks.then_ok, Checks.forM_ok, Checks.mapError_ok, hrestart]

/-- Components that equal themselves are not replaced. -/
theorem replaceChanged_self {components : List ManagedComponentDto} (h : ∀ c ∈ components, (c == c) = true) :
    ∀ pair ∈ components.zip components, o.replaceChanged pair = .ok () := by
  induction components with
  | nil => simp
  | cons c components ih =>
    rintro pair hpair
    rcases List.mem_cons.1 hpair with rfl | hpair
    · unfold replaceChanged
      rw [if_neg]
      rw [bne, h c List.mem_cons_self]
      decide
    · exact ih (fun d hd => h d (List.mem_cons_of_mem _ hd)) pair hpair

/-- Where the other components equal themselves, only the edited one is replaced. -/
theorem replaceChanged_replace {before after : List ManagedComponentDto} {c c' : ManagedComponentDto}
    (h : ∀ d ∈ before ++ c :: after, (d == d) = true) :
    (∀ pair ∈ (before ++ c :: after).zip (before ++ c' :: after), o.replaceChanged pair = .ok ()) ↔
      o.replaceChanged (c, c') = .ok () := by
  rw [List.zip_append rfl, List.zip_cons_cons]
  constructor
  · intro hall
    exact hall _ (List.mem_append_right _ List.mem_cons_self)
  · intro hone pair hpair
    rcases List.mem_append.1 hpair with hpair | hpair
    · exact replaceChanged_self (fun d hd => h d (List.mem_append_left _ hd)) pair hpair
    · rcases List.mem_cons.1 hpair with rfl | hpair
      · exact hone
      · exact replaceChanged_self (fun d hd => h d (List.mem_append_right _ (List.mem_cons_of_mem _ hd))) pair hpair

end Owner

/-- An accepted row is not a changed model of itself. -/
theorem thermalConfigurationChanged_self {resources : List ResourceDto} {i : InstrumentDto}
    (h : checkFields resources i = .ok ()) : thermalConfigurationChanged i i = false := by
  cases i with
  | thermalPlant t =>
    obtain ⟨hambient, hinitial, hgain, -⟩ := (checkFields_plant.1 h).2.2.1
    have hself : ∀ x : F64, x.isFinite = true → (x != x) = false := fun x hx => bne_of_beq (F64.beq_self (F64.isNan_of_isFinite hx))
    simp [thermalConfigurationChanged, hself _ hambient, hself _ hinitial, hself _ hgain]
  | _ => rfl

/-! ### Instruments -/

section Instruments

variable {o : Owner} {dto : DeploymentDto} {before after : List InstrumentDto} {value : PropertyValue} {i i' : InstrumentDto}
  {property : String} {c : MutationClass}

/-- The models of an admitted deployment are in the range of a plant. -/
theorem newThermalPlant_of_admits (hadmits : o.Admits dto) {t : ThermalPlantDto} (ht : .thermalPlant t ∈ dto.instruments) :
    newThermalPlant t.config = .ok () := by
  obtain ⟨o', h⟩ := hadmits.restart (List.any_eq_true.2 ⟨_, ht, rfl⟩)
  obtain ⟨_, hrows, -⟩ := Checks.bind_ok.1 h
  obtain ⟨_, _, hrow⟩ := Checks.foldlM_visits hrows _ ht
  exact Owner.restartRow_ok hrow

/-- What the live apply asks of an accepted edit of an instrument. -/
structure Suits (o : Owner) (property : String) (value : PropertyValue) : Prop where
  temperature : property = "ambient_temperature" ∨ property = "initial_temperature" →
    ∀ x, value.float? = some x → x.isFinite = true → inPlantRange x
  period : property = "poll_period_ms" → ∀ period, value.unsigned? = some period → o.lastNow + period * 10 ^ 6 ≤ durationMax

/-- The changed models of an applied document restart. -/
theorem newThermalPlant_of_applyChecks {t t' : ThermalPlantDto} (hd : dto.instruments = before ++ .thermalPlant t :: after)
    (haccepted : validateStructure dto = .ok ())
    (happly : o.applyChecks dto { dto with instruments := before ++ .thermalPlant t' :: after } = .ok ()) :
    newThermalPlant t'.config = .ok () ∨ thermalConfigurationChanged (.thermalPlant t) (.thermalPlant t') = false := by
  obtain ⟨hrestart, -, -⟩ := Owner.applyChecks_ok.1 happly
  by_cases hchanged : thermalConfigurationChanged (.thermalPlant t) (.thermalPlant t') = true
  · have hzip : zipAny thermalConfigurationChanged dto.instruments (before ++ .thermalPlant t' :: after) = true := by
      rw [hd, zipAny_replace, hchanged]
      intro j hj
      exact thermalConfigurationChanged_self (checkFields_of_accepted haccepted (hd ▸ hj))
    obtain ⟨o', h⟩ := hrestart hzip
    obtain ⟨_, hrows, -⟩ := Checks.bind_ok.1 h
    obtain ⟨_, _, hrow⟩ := Checks.foldlM_visits hrows (.thermalPlant t') (List.mem_append_right _ List.mem_cons_self)
    exact .inl (Owner.restartRow_ok hrow)
  · exact .inr (Bool.not_eq_true _ ▸ hchanged)

theorem inPlantRange_of_beq {x y : F64} (h : (x == y) = true) (hx : inPlantRange x) : inPlantRange y :=
  ⟨F64.le_of_le_of_beq hx.1 (F64.beq_symm h), F64.le_of_beq_of_le (F64.beq_symm h) hx.2⟩

theorem suits_of_applyChecks (h : RowEdit value i property c i') (hd : dto.instruments = before ++ i :: after)
    (haccepted : validateStructure dto = .ok ()) (hadmits : o.Admits dto)
    (happly : o.applyChecks dto { dto with instruments := before ++ i' :: after } = .ok ()) : Suits o property value := by
  have hold : i ∈ dto.instruments := hd ▸ List.mem_append_right _ List.mem_cons_self
  have hrow : o.applyRow i' = .ok () :=
    (Owner.applyChecks_ok.1 happly).2.2 i' (List.mem_append_right _ List.mem_cons_self)
  cases h with
  | period _ ms hvalue =>
    refine ⟨by simp, ?_⟩
    intro _ period hperiod
    have hms : (i.withPollPeriod ms).pollPeriodMs = ms := by cases i <;> rfl
    rw [hvalue] at hperiod
    rw [← Option.some.inj hperiod, ← hms]
    exact Owner.applyRow_period hrow
  | ambient t x hvalue =>
    refine ⟨?_, by simp⟩
    intro _ y hy _
    rw [hvalue] at hy
    rw [← Option.some.inj hy]
    have hrange : inPlantRange t.ambientTemperature := (Owner.newThermalPlant_ok.1 (newThermalPlant_of_admits hadmits hold)).2.1.2.2.2.2.2.2
    rcases newThermalPlant_of_applyChecks hd haccepted happly with hnew | hsame
    · exact (Owner.newThermalPlant_ok.1 hnew).2.1.2.2.2.2.2.2
    · simp only [thermalConfigurationChanged, Bool.or_eq_false_iff, bne, Bool.not_eq_false'] at hsame
      exact inPlantRange_of_beq hsame.1.1.1.2 hrange
  | initial t x hvalue =>
    refine ⟨?_, by simp⟩
    intro _ y hy _
    rw [hvalue] at hy
    rw [← Option.some.inj hy]
    have hrange : inPlantRange t.initialTemperature := (Owner.newThermalPlant_ok.1 (newThermalPlant_of_admits hadmits hold)).2.1.2.2.2.2.2.1
    rcases newThermalPlant_of_applyChecks hd haccepted happly with hnew | hsame
    · exact (Owner.newThermalPlant_ok.1 hnew).2.1.2.2.2.2.2.1
    · simp only [thermalConfigurationChanged, Bool.or_eq_false_iff, bne, Bool.not_eq_false'] at hsame
      exact inPlantRange_of_beq hsame.1.1.2 hrange
  | _ => exact ⟨by simp, by simp⟩

theorem applyChecks_of_suits (h : RowEdit value i property c i') (hd : dto.instruments = before ++ i :: after)
    (haccepted : validateStructure dto = .ok ()) (hadmits : o.Admits dto) (hnew : checkFields dto.resources i' = .ok ())
    (hsuits : Suits o property value) : o.applyChecks dto { dto with instruments := before ++ i' :: after } = .ok () := by
  have hself : ∀ j ∈ before ++ i :: after, thermalConfigurationChanged j j = false := fun j hj =>
    thermalConfigurationChanged_self (checkFields_of_accepted haccepted (hd ▸ hj))
  refine Owner.applyChecks_ok.2 ⟨?_, ?_, ?_⟩
  · intro hchanged
    rw [hd, zipAny_replace hself] at hchanged
    have hkind : i.kind = .thermalPlant := by
      unfold thermalConfigurationChanged at hchanged
      split at hchanged
      · rfl
      · cases hchanged
    have hkind' : i'.kind = .thermalPlant := (congrArg InstrumentHead.kind h.head_eq).trans hkind
    obtain ⟨o', hrestart⟩ := hadmits.restart (List.any_eq_true.2 ⟨i, hd ▸ List.mem_append_right _ List.mem_cons_self, by simp [hkind]⟩)
    obtain ⟨o₁, hrows, hdone⟩ := Checks.bind_ok.1 hrestart
    rw [hd] at hrows
    have hrows' := Checks.foldlM_replace (fun s s' hrow => h.restartRow hnew hsuits.temperature hrow) hrows
    refine ⟨o₁, Checks.bind_ok.2 ⟨o₁, hrows', Checks.reject_bind.2 ⟨?_, rfl⟩⟩⟩
    rw [Bool.not_eq_false]
    exact List.any_eq_true.2 ⟨i', List.mem_append_right _ List.mem_cons_self, by simp [hkind']⟩
  · exact Owner.replaceChanged_self fun c hc => component_beq_self (window_of_accepted haccepted hc).choose_spec
  · intro j hj
    rcases List.mem_append.1 hj with hj | hj
    · exact hadmits.apply j (hd ▸ List.mem_append_left _ hj)
    · rcases List.mem_cons.1 hj with rfl | hj
      · exact h.applyRow hnew hsuits.period (hadmits.apply i (hd ▸ List.mem_append_right _ List.mem_cons_self))
      · exact hadmits.apply j (hd ▸ List.mem_append_right _ (List.mem_cons_of_mem _ hj))

/-! #### The record of a cadence -/

theorem pollPeriod_record {m : InstrumentPropertyMetadata} (hm : m ∈ i.propertyMetadata) (hid : m.id = "poll_period_ms") :
    ∃ minimum, m = pollPeriodMetadata i.pollPeriodMs minimum := by
  cases i with
  | virtualMeasurement v =>
    simp only [InstrumentDto.propertyMetadata, List.mem_cons, List.not_mem_nil, or_false] at hm
    rcases hm with rfl | rfl | rfl | rfl | rfl
    · simp [displayNameMetadata] at hid
    · exact ⟨1, rfl⟩
    all_goals simp [reinitializeMetadata] at hid
  | thermalPlant t =>
    simp only [InstrumentDto.propertyMetadata, List.mem_cons, List.not_mem_nil, or_false] at hm
    rcases hm with rfl | rfl | rfl | rfl | rfl | rfl
    · simp [displayNameMetadata] at hid
    · exact ⟨1, rfl⟩
    all_goals simp [reinitializeMetadata] at hid
  | metakon m => exact ⟨1, List.mem_singleton.1 hm⟩
  | simpleDevice s => exact ⟨10, List.mem_singleton.1 hm⟩

theorem unsigned_integer {ms : ℕ} (h : value.unsigned? = some ms) : value = .integer ms := by
  cases value with
  | integer n =>
    simp only [PropertyValue.unsigned?] at h
    split_ifs at h with hrange
    rw [← Option.some.inj h, Int.toNat_of_nonneg hrange.1]
  | _ => cases h

/-- An edit is accepted, or it is none of those that the live apply could object to. -/
theorem accepted_or_suits {m : InstrumentPropertyMetadata} {owner : PropertyOwner} {revision : ℕ} {resources : List ResourceDto}
    (hold : checkFields resources i = .ok ()) (hm : m ∈ i.propertyMetadata)
    (hallows : (projectInstrumentProperty owner revision m).allows value = true) (h : i.withProperty m.id value = some i') :
    checkFields resources i' = .ok () ∨ Suits o m.id value := by
  have hedit := rowEdit_of_metadata hm h
  generalize hproperty : m.id = property at hedit
  generalize m.mutation = c at hedit
  cases hedit with
  | period _ ms hvalue =>
    obtain ⟨minimum, rfl⟩ := pollPeriod_record hm hproperty
    rw [unsigned_integer hvalue] at hallows
    simp only [projectInstrumentProperty, pollPeriodMetadata, PropertyRecord.allows, PropertyType.holds, Option.all_some,
      PropertyConstraints.holds, Bool.true_and, Bool.and_eq_true, decide_eq_true_eq] at hallows
    exact .inl (RowEdit.checkFields_period hold hm hallows.1 (by omega))
  | ambient t x hvalue =>
    by_cases hx : x.isFinite = true
    · obtain ⟨h1, h2, ⟨_, h3⟩, h4⟩ := checkFields_plant.1 hold
      exact .inl (checkFields_plant.2 ⟨h1, h2, ⟨hx, h3⟩, h4⟩)
    · refine .inr ⟨?_, by simp⟩
      intro _ y hy hfinite
      rw [hvalue] at hy
      exact absurd (Option.some.inj hy ▸ hfinite) hx
  | initial t x hvalue =>
    by_cases hx : x.isFinite = true
    · obtain ⟨h1, h2, ⟨h3, _, h4⟩, h5⟩ := checkFields_plant.1 hold
      exact .inl (checkFields_plant.2 ⟨h1, h2, ⟨h3, hx, h4⟩, h5⟩)
    · refine .inr ⟨?_, by simp⟩
      intro _ y hy hfinite
      rw [hvalue] at hy
      exact absurd (Option.some.inj hy ▸ hfinite) hx
  | _ => exact .inr ⟨by simp, by simp⟩

end Instruments

/-! ### The property -/

/-- An edit is rejected by the validator, or it is classified as its class says and passes every check of the live apply. -/
def LiveApplied (outside : Outside) (o : Owner) (active candidate : FrozenDeployment) (c : MutationClass) : Prop :=
  candidate.accept outside = .ok () →
    (candidate.dto ≠ active.dto → Classified c (candidate.changesFrom outside.display active)) ∧
      o.applyChecks active.dto candidate.dto = .ok ()

section Edits

variable {outside : Outside} {o : Owner} {d : FrozenDeployment} {tomlBytes tomlHash : List UInt8} {value : PropertyValue}

theorem RowEdit.class_ne {i i' : InstrumentDto} {property : String} {c : MutationClass} (h : RowEdit value i property c i') :
    c ≠ .rebindRequired := by
  cases h <;> decide

theorem liveApplied_instrument (hdisplay : Displays outside.display) (hcheck : d.check outside = .ok ()) (hadmits : o.Admits d.dto)
    {before after : List InstrumentDto} {i i' : InstrumentDto} (hd : d.dto.instruments = before ++ i :: after)
    {m : InstrumentPropertyMetadata} (hm : m ∈ i.propertyMetadata) {owner : PropertyOwner} {revision : ℕ}
    (hallows : (projectInstrumentProperty owner revision m).allows value = true) (hedit : i.withProperty m.id value = some i') :
    LiveApplied outside o d (d.withDocument tomlBytes tomlHash { d.dto with instruments := before ++ i' :: after }) m.mutation ↔
      ((d.withDocument tomlBytes tomlHash { d.dto with instruments := before ++ i' :: after }).WithinLimits →
        Suits o m.id value) := by
  have haccepted := (FrozenDeployment.check_ok.1 hcheck).1
  have hrow := rowEdit_of_metadata hm hedit
  have hold := checkFields_of_accepted haccepted (hd ▸ List.mem_append_right before List.mem_cons_self : i ∈ d.dto.instruments)
  constructor
  · intro hlive hlimits
    rcases accepted_or_suits hold hm hallows hedit with hnew | hsuits
    · have happly := (hlive (FrozenDeployment.accept_ok.2 ⟨hlimits, (check_instrument hrow hd hcheck).2 hnew⟩)).2
      exact suits_of_applyChecks hrow hd haccepted hadmits happly
    · exact hsuits
  · intro hsuits haccept
    obtain ⟨hlimits, hcandidate⟩ := FrozenDeployment.accept_ok.1 haccept
    have hnew := (check_instrument hrow hd hcheck).1 hcandidate
    refine ⟨?_, applyChecks_of_suits hrow hd haccepted hadmits hnew (hsuits hlimits)⟩
    intro hdiffers
    have hne : i' ≠ i := by
      rintro rfl
      refine hdiffers ?_
      show { d.dto with instruments := before ++ i' :: after } = d.dto
      rw [← hd]
    rw [changesFrom_instrument hrow hd (comparable_of_accepted haccepted), hrow.name_eq hne, hrow.period_eq hne,
      hrow.model_eq hne hdisplay hold hnew]
    exact classified_of_flags m.mutation hrow.class_ne _

/-! ### Components -/

/-- What is published of an accepted component. -/
theorem component_record {c : ManagedComponentDto} {window : ℤ} (hwindow : HasWindow c window) {revision : ℕ} {record : PropertyRecord}
    (h : record ∈ componentProperties revision c) :
    record.owner = ⟨.component, c.id⟩ ∧ record.mutationClass = .reinitialization ∧ record.valueType = .scalar .integer ∧
      (record.property = "period_ms" ∧ record.constraints = some (.integer 1 60000) ∨
        record.property = MovingMean.windowField ∧ record.constraints = some (.integer 2 64) ∧
          record.current = .integer window) := by
  unfold componentProperties at h
  rcases List.mem_cons.1 h with rfl | h
  · exact ⟨rfl, rfl, rfl, .inl ⟨rfl, rfl⟩⟩
  · rw [hwindow.entries] at h
    obtain ⟨entry, hentry, hrecord⟩ := List.mem_filterMap.1 h
    rw [List.mem_singleton.1 hentry] at hrecord
    have hmetadata : ((componentPropertyMetadata c.implementation).find? fun metadata => metadata.id == MovingMean.windowField) =
        movingMeanProperties.head? := by
      rw [properties_of_implementation hwindow.implementation]
      rfl
    unfold componentProperty at hrecord
    dsimp only at hrecord
    rw [hmetadata] at hrecord
    obtain rfl := Option.some.inj hrecord
    exact ⟨rfl, rfl, rfl, .inr ⟨rfl, rfl, rfl⟩⟩

theorem list_beq_replace {α : Type} [BEq α] {before after : List α} {x y : α} (h : (x == y) = false) :
    ((before ++ x :: after) == (before ++ y :: after)) = false := by
  induction before with
  | nil =>
    show (x == y && after == after) = false
    rw [h, Bool.false_and]
  | cons z before ih =>
    show (z == z && (before ++ x :: after) == (before ++ y :: after)) = false
    rw [ih, Bool.and_false]

/-- A replacement keeps the warm-up of what it replaces, which is its window. -/
theorem warmup_of_replaceComponent {c : ManagedComponentDto} {window : ℤ} (hwindow : HasWindow c window)
    (h : o.replaceComponent c = .ok ()) :
    ∃ old, o.managed.get c.id = some old ∧ old.definition.manifest.warmupSamples = window.toNat := by
  unfold Owner.replaceComponent at h
  obtain ⟨config, hconfig, hrest⟩ := Checks.bind_ok.1 h
  rw [Checks.mapError_ok, plainConfig_window hwindow] at hconfig
  rw [← Except.ok.inj hconfig] at hrest
  obtain ⟨definition, hbuild, hvalid⟩ := Checks.bind_ok.1 hrest
  rw [Checks.mapError_ok] at hbuild
  obtain ⟨input, hinput⟩ := input_of_build hbuild
  obtain ⟨composed, hcomposed, hwarmup⟩ := build_window hwindow input hinput
  rw [← Except.ok.inj (hbuild.symm.trans hcomposed)] at hwarmup
  obtain ⟨old, hold, hsame⟩ := Owner.retained_of_valid hvalid
  exact ⟨old, hold, hsame.trans hwarmup⟩

theorem window_of_beq {c c' : ManagedComponentDto} {window window' : ℤ} (h : HasWindow c window) (h' : HasWindow c' window')
    (heq : (c == c') = true) : window = window' := by
  have hall : (c.id == c'.id && c.instrumentId == c'.instrumentId && c.key == c'.key && c.displayName == c'.displayName &&
    c.implementation == c'.implementation && c.config.entries == c'.config.entries &&
    c.inputInstrumentId == c'.inputInstrumentId && c.periodMs == c'.periodMs) = true := heq
  simp only [Bool.and_eq_true] at hall
  have hentries := hall.1.1.2
  rw [h.entries, h'.entries] at hentries
  have hvalue : ((MovingMean.windowField == MovingMean.windowField && window == window') && true) = true := hentries
  simpa using hvalue

/-- Edits of a component change no instrument, so the live apply asks only about the replacement. -/
theorem applyChecks_component (haccepted : validateStructure d.dto = .ok ()) (hadmits : o.Admits d.dto)
    {before after : List ManagedComponentDto} {c c' : ManagedComponentDto} (hd : d.dto.managedComponents = before ++ c :: after) :
    o.applyChecks d.dto { d.dto with managedComponents := before ++ c' :: after } = .ok () ↔ o.replaceChanged (c, c') = .ok () := by
  have hself : ∀ b ∈ before ++ c :: after, (b == b) = true := fun b hb =>
    component_beq_self (window_of_accepted haccepted (hd ▸ hb)).choose_spec
  have hunchanged : zipAny thermalConfigurationChanged d.dto.instruments d.dto.instruments = false :=
    zipAny_self fun i hi => thermalConfigurationChanged_self (checkFields_of_accepted haccepted hi)
  rw [Owner.applyChecks_ok]
  show ((zipAny thermalConfigurationChanged d.dto.instruments d.dto.instruments = true → _) ∧
    (∀ pair ∈ d.dto.managedComponents.zip (before ++ c' :: after), _) ∧ _) ↔ _
  rw [hd, Owner.replaceChanged_replace hself, hunchanged]
  exact ⟨fun h => h.2.1, fun h => ⟨fun hfalse => absurd hfalse (by decide), h, hadmits.apply⟩⟩

theorem classified_component (haccepted : validateStructure d.dto = .ok ()) {before after : List ManagedComponentDto}
    {c c' : ManagedComponentDto} (hd : d.dto.managedComponents = before ++ c :: after) (hne : (c == c') = false) :
    Classified .reinitialization ((d.withDocument tomlBytes tomlHash
      { d.dto with managedComponents := before ++ c' :: after }).changesFrom outside.display d) := by
  have hlist : (d.dto.managedComponents != before ++ c' :: after) = true := by
    rw [hd, bne, list_beq_replace hne]
    rfl
  rw [changesFrom_component hd (comparable_of_accepted haccepted) hlist, ← Bool.or_false (tomlHash != d.tomlHash)]
  exact classified_of_flags .reinitialization (by decide) _

theorem liveApplied_period (hcheck : d.check outside = .ok ()) (hadmits : o.Admits d.dto) {before after : List ManagedComponentDto}
    {c : ManagedComponentDto} (hd : d.dto.managedComponents = before ++ c :: after) (period : ℕ) :
    LiveApplied outside o d (d.withDocument tomlBytes tomlHash
      { d.dto with managedComponents := before ++ { c with periodMs := period } :: after }) .reinitialization := by
  have haccepted := (FrozenDeployment.check_ok.1 hcheck).1
  have hc : c ∈ d.dto.managedComponents := hd ▸ List.mem_append_right _ List.mem_cons_self
  intro _
  constructor
  · intro hdiffers
    refine classified_component haccepted hd ?_
    have hperiod : c.periodMs ≠ period := by
      rintro rfl
      refine hdiffers ?_
      show { d.dto with managedComponents := before ++ c :: after } = d.dto
      rw [← hd]
    show (_ && c.periodMs == period) = false
    rw [beq_eq_false_iff_ne.2 hperiod, Bool.and_false]
  · refine (applyChecks_component haccepted hadmits hd).2 ?_
    unfold Owner.replaceChanged
    split_ifs
    · exact hadmits.replace c hc
    · rfl

theorem liveApplied_window (hcheck : d.check outside = .ok ()) (hadmits : o.Admits d.dto) {before after : List ManagedComponentDto}
    {c : ManagedComponentDto} (hd : d.dto.managedComponents = before ++ c :: after) {window n : ℤ} (hwindow : HasWindow c window)
    (hleast : 2 ≤ n) (hmost : n ≤ 64) {c' : ManagedComponentDto}
    (hc' : c' = { c with config := c.config.insert MovingMean.windowField (.integer n) }) :
    LiveApplied outside o d (d.withDocument tomlBytes tomlHash { d.dto with managedComponents := before ++ c' :: after })
        .reinitialization ↔
      ((d.withDocument tomlBytes tomlHash { d.dto with managedComponents := before ++ c' :: after }).WithinLimits → n = window) := by
  have haccepted := (FrozenDeployment.check_ok.1 hcheck).1
  have hc : c ∈ d.dto.managedComponents := hd ▸ List.mem_append_right _ List.mem_cons_self
  constructor
  · intro hlive hlimits
    have hrow : ∀ ids s s', checkComponent ids s c = .ok s' → checkComponent ids s c' = .ok s' := by
      intro ids s s' h
      rw [hc']
      exact checkComponent_window_replace hwindow hleast hmost h
    have hcandidate : (d.withDocument tomlBytes tomlHash
        { d.dto with managedComponents := before ++ c' :: after }).check outside = .ok () :=
      check_component (by rw [hc']; rfl) hd hcheck hrow
    have happly := (hlive (FrozenDeployment.accept_ok.2 ⟨hlimits, hcandidate⟩)).2
    have hreplaced := (applyChecks_component haccepted hadmits hd).1 happly
    have hnew : HasWindow c' n := hc' ▸ hasWindow_insert hwindow hleast hmost
    unfold Owner.replaceChanged at hreplaced
    split_ifs at hreplaced with hdiffers
    swap
    · rw [Bool.not_eq_true, bne, Bool.not_eq_false'] at hdiffers
      exact (window_of_beq hwindow hnew hdiffers).symm
    obtain ⟨old, hold, hwarmup⟩ := warmup_of_replaceComponent hwindow (hadmits.replace c hc)
    obtain ⟨old', hold', hwarmup'⟩ := warmup_of_replaceComponent hnew hreplaced
    rw [show c'.id = c.id by rw [hc'], hold] at hold'
    rw [← Option.some.inj hold', hwarmup] at hwarmup'
    have h2 := hwindow.least
    omega
  · intro hsame haccept
    have hn := hsame (FrozenDeployment.accept_ok.1 haccept).1
    have hsame' : c' = c := by rw [hc', hn, insert_window hwindow]
    rw [hsame', ← hd]
    refine ⟨fun hdiffers => absurd rfl hdiffers, ?_⟩
    have hunreplaced : o.replaceChanged (c, c) = .ok () := by
      unfold Owner.replaceChanged
      rw [if_neg]
      rw [bne, component_beq_self hwindow]
      decide
    have happly := (applyChecks_component haccepted hadmits hd).2 hunreplaced
    rw [← hd] at happly
    exact happly

end Edits

/-! ### Every published record -/

theorem nodup_of_accepted {dto : DeploymentDto} (h : validateStructure dto = .ok ()) :
    (dto.instruments.map InstrumentDto.id).Nodup ∧ (dto.managedComponents.map ManagedComponentDto.id).Nodup := by
  obtain ⟨_, _, _, _, hinstruments, _, hcomponents, _⟩ := validateStructure_ok.1 h
  exact ⟨(instruments_nodup hinstruments).1, (components_nodup hcomponents).1⟩

/-- An edit through a published record edits the row that the record is about. -/
theorem edited_row {dto dto' : DeploymentDto} (haccepted : validateStructure dto = .ok ()) {text : PropertyRecord → String}
    {revision : ℕ} {records : List PropertyRecord} (hrecords : propertyRecords text dto revision = .ok records)
    {record : PropertyRecord} (hrecord : record ∈ records) {value : PropertyValue}
    (hedit : dto.edit record.owner record.property value = some dto') :
    (∃ before i after m i', dto.instruments = before ++ i :: after ∧ m ∈ i.propertyMetadata ∧
        record = projectInstrumentProperty ⟨.instrument, i.id⟩ revision m ∧ i.withProperty m.id value = some i' ∧
        dto' = { dto with instruments := before ++ i' :: after }) ∨
      ∃ before c after c', dto.managedComponents = before ++ c :: after ∧ record ∈ componentProperties revision c ∧
        c.withProperty record.property value = some c' ∧ dto' = { dto with managedComponents := before ++ c' :: after } := by
  obtain ⟨hinstrumentIds, hcomponentIds⟩ := nodup_of_accepted haccepted
  unfold propertyRecords at hrecords
  dsimp only at hrecords
  split_ifs at hrecords
  rw [← Except.ok.inj hrecords, List.mem_mergeSort, List.mem_append, List.mem_append] at hrecord
  rcases hrecord with (hrecord | hrecord) | hrecord
  · obtain ⟨r, _, hrecord⟩ := List.mem_flatMap.1 hrecord
    have howner : record.owner.kind = .resource := by
      rcases List.mem_cons.1 hrecord with rfl | hrecord
      · rfl
      · rw [List.mem_singleton.1 hrecord]
        rfl
    rw [DeploymentDto.edit, howner] at hedit
    cases hedit
  · obtain ⟨i, hi, hrecord⟩ := List.mem_flatMap.1 hrecord
    obtain ⟨m, hm, rfl⟩ := List.mem_map.1 hrecord
    obtain ⟨instruments, hrows, rfl⟩ := Option.map_eq_some_iff.1 hedit
    obtain ⟨before, j, i', after, hd, hid, hrow, rfl⟩ := editFirst_some hrows
    have hj : j ∈ dto.instruments := hd ▸ List.mem_append_right _ List.mem_cons_self
    obtain rfl := eq_of_key hinstrumentIds hj hi (eq_of_beq hid)
    exact .inl ⟨before, j, after, m, i', hd, hm, rfl, hrow, rfl⟩
  · obtain ⟨c, hc, hrecord⟩ := List.mem_flatMap.1 hrecord
    obtain ⟨_, hwindow⟩ := window_of_accepted haccepted hc
    have howner := (component_record hwindow hrecord).1
    rw [howner] at hedit
    obtain ⟨components, hrows, rfl⟩ := Option.map_eq_some_iff.1 hedit
    obtain ⟨before, b, c', after, hd, hid, hrow, rfl⟩ := editFirst_some hrows
    have hb : b ∈ dto.managedComponents := hd ▸ List.mem_append_right _ List.mem_cons_self
    obtain rfl := eq_of_key hcomponentIds hb hc (eq_of_beq hid)
    exact .inr ⟨before, b, after, c', hd, hrecord, hrow, rfl⟩

/-- The values that the live apply can reject: another window, temperatures that no plant has, and a cadence past the end of time. -/
structure Harmless (o : Owner) (record : PropertyRecord) (value : PropertyValue) : Prop where
  window : record.owner.kind = .component → record.property = MovingMean.windowField → value = record.current
  temperature : record.property = "ambient_temperature" ∨ record.property = "initial_temperature" →
    ∀ x, value.float? = some x → x.isFinite = true → inPlantRange x
  period : record.property = "poll_period_ms" →
    ∀ period, value.unsigned? = some period → o.lastNow + period * 10 ^ 6 ≤ durationMax

/-! #### A deployment of one plant -/

/-- Numbers written as a table says, any other by its bits. -/
def writtenAs (table : List (F64 × String)) (x : F64) : String :=
  match table.find? fun entry => decide (entry.1 = x) with
  | some entry => entry.2
  | none => "#" ++ x.bits.toNat.repr

theorem writtenAs_displays {table : List (F64 × String)} (htexts : ∀ a ∈ table, ∀ b ∈ table, a.2 = b.2 → a.1 = b.1)
    (hplain : ∀ a ∈ table, a.2.toList.head? ≠ some '#') : Displays (writtenAs table) := by
  intro x y _ _ h
  have hhead : ∀ n : ℕ, ("#" ++ n.repr).toList.head? = some '#' := fun n => by simp
  unfold writtenAs at h
  split at h <;> split at h
  next a ha _ b hb =>
    have hx : a.1 = x := by simpa using List.find?_some ha
    have hy : b.1 = y := by simpa using List.find?_some hb
    rw [← hx, ← hy]
    exact htexts a (List.mem_of_find?_eq_some ha) b (List.mem_of_find?_eq_some hb) h
  next a ha _ _ =>
    exact absurd (h ▸ hhead _) (hplain a (List.mem_of_find?_eq_some ha))
  next _ _ b hb =>
    exact absurd (h ▸ hhead _) (hplain b (List.mem_of_find?_eq_some hb))
  next =>
    have hbits := BitVec.eq_of_toNat_eq (Decimal.repr_injective ((String.append_right_inj _).1 h))
    cases x
    cases y
    exact congrArg F64.mk hbits

def onePlantNumbers : List (F64 × String) :=
  [(F64.ofInt 1, "1"), (F64.ofInt 20, "20"), (F64.ofInt 30, "30"), (F64.ofInt 600, "600")]

def onePlantOutside : Outside := { parseDefinition := fun _ => .error "no definition", display := writtenAs onePlantNumbers }

/-- A plant at 20 °C with a given ambient temperature. -/
def onePlant (ambient : F64) : ThermalPlantDto :=
  { id := 1
    key := "plant"
    displayName := "Plant"
    historyCapacity := 16
    ambientTemperature := ambient
    initialTemperature := F64.ofInt 20
    gainPerPercent := F64.ofInt 1
    timeConstantMs := 60000
    pollPeriodMs := 100 }

def onePlantDocument (ambient : F64) : DeploymentDto :=
  { schemaVersion := 1
    runtime := ⟨"bench", "Bench"⟩
    server := ⟨"127.0.0.1", 0, ⟨false, 0, []⟩⟩
    recording := ⟨false, ⟨""⟩, .bestEffort⟩
    resources := []
    instruments := [.thermalPlant (onePlant ambient)]
    managedComponents := []
    references := []
    controllers := []
    safeProfiles := [] }

def onePlantDeployment : FrozenDeployment :=
  { base := ⟨"/etc/lab"⟩
    tomlBytes := []
    tomlHash := []
    dto := onePlantDocument (F64.ofInt 20)
    artifacts := []
    simpleDefinitions := [] }

/-- The owner after the safe barrier. -/
def onePlantOwner : Owner :=
  { lastNow := 10 ^ 9
    instruments := [1]
    plants := [1]
    metakonReads := []
    simpleDeviceReads := []
    thermalPlants := OrderedMap.empty.insert 1 1
    virtualModelGenerations := OrderedMap.empty.insert 1 1
    controllers := []
    outputs := OrderedMap.empty
    managed := OrderedMap.empty
    descriptor := fun _ => none }

def ambientRecord : PropertyRecord :=
  projectInstrumentProperty ⟨.instrument, 1⟩ 1
    (reinitializeMetadata "ambient_temperature" .number (.number (F64.ofInt 20)) (some celsius) .deploymentOnly none)

theorem onePlantNumbers_texts : ∀ a ∈ onePlantNumbers, ∀ b ∈ onePlantNumbers, a.2 = b.2 → a.1 = b.1 := by decide +kernel

theorem onePlantNumbers_plain : ∀ a ∈ onePlantNumbers, a.2.toList.head? ≠ some '#' := by decide +kernel

theorem onePlant_displays : Displays onePlantOutside.display := by
  dsimp only [onePlantOutside]
  exact writtenAs_displays onePlantNumbers_texts onePlantNumbers_plain

theorem onePlant_admits : onePlantOwner.Admits onePlantDeployment.dto := by
  refine ⟨fun _ => ?_, by simp [onePlantDeployment, onePlantDocument], ?_⟩
  · have hok : (onePlantOwner.restartConfiguredVirtualModels onePlantDeployment.dto.instruments).isOk = true := by decide +kernel
    cases h : onePlantOwner.restartConfiguredVirtualModels onePlantDeployment.dto.instruments with
    | error _ =>
      rw [h] at hok
      cases hok
    | ok o' => exact ⟨o', rfl⟩
  · intro i hi
    rw [List.mem_singleton.1 hi]
    decide +kernel

theorem ambientRecord_published : ∃ records, propertyRecords (fun _ => "") onePlantDeployment.dto 1 = .ok records ∧
    ambientRecord ∈ records := by
  unfold propertyRecords
  dsimp only
  rw [if_neg (by decide +kernel)]
  refine ⟨_, rfl, ?_⟩
  rw [List.mem_mergeSort]
  simp [onePlantDeployment, onePlantDocument, projectInstrumentProperties, InstrumentDto.propertyMetadata, ambientRecord,
    InstrumentDto.id, onePlant]

end LabRuntime.Deployment
