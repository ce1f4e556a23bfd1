import LabRuntime.Deployment.Edits

/-! The owner's checks row by row: what each asks of a row, and why an edited row passes where the old one did. -/

namespace LabRuntime.Deployment

open LabRuntime

namespace Owner

variable {o : Owner}

theorem rename_ok {id : InstrumentId} {name : String} :
    o.rename id name = .ok () ↔ validateName name = .ok () ∧ id ∈ o.instruments := by
  simp only [rename, Checks.then_ok, Checks.reject_ok, not_not]

theorem schedule_ok {slots : List InstrumentId} {id : InstrumentId} {periodMs : ℕ} {missing : String} :
    o.schedule slots id periodMs missing = .ok () ↔ id ∈ slots ∧ o.lastNow + periodMs * 10 ^ 6 ≤ durationMax := by
  simp only [schedule, Checks.then_ok, Checks.reject_ok, not_not, not_lt]

/-- Every row that is applied leaves a deadline that can be represented. -/
theorem applyRow_period {i : InstrumentDto} (h : o.applyRow i = .ok ()) : o.lastNow + i.pollPeriodMs * 10 ^ 6 ≤ durationMax := by
  cases i with
  | virtualMeasurement v => exact (schedule_ok.1 (Checks.then_ok.1 h).2).2
  | thermalPlant t => exact (schedule_ok.1 (Checks.then_ok.1 h).2).2
  | metakon m => exact (schedule_ok.1 h).2
  | simpleDevice s => exact (schedule_ok.1 (Checks.then_ok.1 h).2).2

theorem applyRow_withPollPeriod {i : InstrumentDto} {period : ℕ} (h : o.applyRow i = .ok ())
    (hperiod : o.lastNow + period * 10 ^ 6 ≤ durationMax) : o.applyRow (i.withPollPeriod period) = .ok () := by
  cases i with
  | virtualMeasurement v =>
    obtain ⟨hname, hslot⟩ := Checks.then_ok.1 h
    exact Checks.then_ok.2 ⟨hname, schedule_ok.2 ⟨(schedule_ok.1 hslot).1, hperiod⟩⟩
  | thermalPlant t =>
    obtain ⟨hname, hslot⟩ := Checks.then_ok.1 h
    exact Checks.then_ok.2 ⟨hname, schedule_ok.2 ⟨(schedule_ok.1 hslot).1, hperiod⟩⟩
  | metakon m => exact schedule_ok.2 ⟨(schedule_ok.1 h).1, hperiod⟩
  | simpleDevice s =>
    obtain ⟨hname, hslot⟩ := Checks.then_ok.1 h
    exact Checks.then_ok.2 ⟨hname, schedule_ok.2 ⟨(schedule_ok.1 hslot).1, hperiod⟩⟩

/-- A display name of the deployment is a name for Core. -/
theorem validateName_of_displayName {name : String} (h : validateDisplayName name = .ok ()) : validateName name = .ok () := by
  have h := refuse_ok.1 h
  unfold validateName
  rw [if_neg]
  simpa [maxNameBytes] using h

/-! ### Models -/

theorem newThermalPlant_ok {config : ThermalPlantConfig} :
    newThermalPlant config = .ok () ↔
      validateName config.name = .ok () ∧
        (config.ambientTemperature.isFinite = true ∧ config.initialTemperature.isFinite = true ∧
          config.gainPerPercent.isFinite = true ∧ ¬ config.gainPerPercent ≤ F64.zero ∧ config.timeConstant ≠ 0 ∧
          inPlantRange config.initialTemperature ∧ inPlantRange config.ambientTemperature) ∧
        (thermalParameters config.id).forM ParameterDescriptor.validateDefinition = .ok () ∧
        ∃ signal, SignalBuffer.new ⟨config.id, MovingMean.temperature⟩ config.historyCapacity = .ok signal := by
  simp only [newThermalPlant, Checks.then_ok]
  simp only [Checks.bind_ok, Checks.reject_ok, Checks.pure_ok, not_or, Bool.not_eq_false, not_not, ne_eq, and_true]

theorem restartThermalPlant_ok {config : ThermalPlantConfig} {expected generation : ℕ} :
    o.restartThermalPlant config expected = .ok generation ↔
      (o.modelGeneration config.id = .ok expected ∧
          (o.controllers.any fun c => (c.input = config.id ∨ c.output = config.id) ∧ c.state.live = true) = false ∧
          o.held ⟨config.id, heaterPower⟩ = false ∧ nextGeneration expected = .ok generation) ∧
        newThermalPlant config = .ok () := by
  simp only [restartThermalPlant, Checks.bind_ok, Checks.reject_ok, Checks.pure_ok, Bool.not_eq_true, ne_eq, not_not]
  constructor
  · rintro ⟨_, hgeneration, _, rfl, _, hcontrollers, _, hheld, _, hnext, _, hplant, rfl⟩
    exact ⟨⟨hgeneration, hcontrollers, hheld, hnext⟩, hplant⟩
  · rintro ⟨⟨hgeneration, hcontrollers, hheld, hnext⟩, hplant⟩
    exact ⟨_, hgeneration, (), rfl, (), hcontrollers, (), hheld, _, hnext, (), hplant, rfl⟩

theorem restartRow_ok {t : ThermalPlantDto} {o' : Owner} (h : o.restartRow (.thermalPlant t) = .ok o') :
    newThermalPlant t.config = .ok () := by
  unfold restartRow at h
  dsimp only at h
  split at h
  · cases h
  · obtain ⟨_, hrestart, -⟩ := Checks.bind_ok.1 h
    exact (restartThermalPlant_ok.1 hrestart).2

/-- A plant of the same identity restarts as another does, where Core accepts its values. -/
theorem restartRow_replace {t t' : ThermalPlantDto} (hid : t'.id = t.id)
    (hplant : newThermalPlant t.config = .ok () → newThermalPlant t'.config = .ok ()) {o' : Owner}
    (h : o.restartRow (.thermalPlant t) = .ok o') : o.restartRow (.thermalPlant t') = .ok o' := by
  unfold restartRow at h ⊢
  dsimp only at h ⊢
  rw [hid]
  split at h
  · cases h
  next expected _ =>
    obtain ⟨generation, hrestart, h⟩ := Checks.bind_ok.1 h
    obtain ⟨hstate, hnew⟩ := restartThermalPlant_ok.1 hrestart
    have hconfig : t'.config.id = t.config.id := hid
    have hrestart' : o.restartThermalPlant t'.config expected = .ok generation := by
      refine restartThermalPlant_ok.2 ⟨?_, hplant hnew⟩
      rw [hconfig]
      exact hstate
    exact Checks.bind_ok.2 ⟨generation, hrestart', h⟩

/-! ### Components -/

/-- What a valid replacement replaces has the same warm-up. -/
theorem retained_of_valid {definition : ComponentDefinition F64} {id : ComponentId}
    (h : o.validateComponentDefinition definition id = .ok ()) :
    ∃ old, o.managed.get id = some old ∧ old.definition.manifest.warmupSamples = definition.manifest.warmupSamples := by
  unfold validateComponentDefinition at h
  obtain ⟨-, h⟩ := Checks.then_ok.1 h
  obtain ⟨-, h⟩ := Checks.then_ok.1 h
  obtain ⟨-, h⟩ := Checks.then_ok.1 h
  obtain ⟨_, -, h⟩ := Checks.bind_ok.1 h
  obtain ⟨hretained, -⟩ := Checks.then_ok.1 h
  unfold checkRetained at hretained
  split at hretained
  · cases hretained
  next old hold =>
    have hsame := Checks.reject_ok.1 (Checks.then_ok.1 hretained).1
    rw [not_or, Bool.not_eq_false] at hsame
    have hsame := hsame.2
    simp only [sameManifest, Bool.and_eq_true, decide_eq_true_eq] at hsame
    exact ⟨old, hold, hsame.1.1.2⟩

end Owner

namespace RowEdit

variable {o : Owner} {value : PropertyValue} {i i' : InstrumentDto} {property : String} {c : MutationClass}
  {resources : List ResourceDto}

/-- An accepted edit is renamed and scheduled as the old row was, while its deadline can be represented. -/
theorem applyRow (h : RowEdit value i property c i') (hnew : checkFields resources i' = .ok ())
    (hperiod : property = "poll_period_ms" → ∀ period, value.unsigned? = some period → o.lastNow + period * 10 ^ 6 ≤ durationMax)
    (happly : o.applyRow i = .ok ()) : o.applyRow i' = .ok () := by
  cases h with
  | period _ ms hvalue => exact Owner.applyRow_withPollPeriod happly (hperiod rfl ms hvalue)
  | virtualName v name _ =>
    obtain ⟨hname, hslot⟩ := Checks.then_ok.1 happly
    have hvalid := Owner.validateName_of_displayName (checkFields_virtual.1 hnew).1
    exact Checks.then_ok.2 ⟨Owner.rename_ok.2 ⟨hvalid, (Owner.rename_ok.1 hname).2⟩, hslot⟩
  | plantName t name _ =>
    obtain ⟨hname, hslot⟩ := Checks.then_ok.1 happly
    have hvalid := Owner.validateName_of_displayName (checkFields_plant.1 hnew).1
    exact Checks.then_ok.2 ⟨Owner.rename_ok.2 ⟨hvalid, (Owner.rename_ok.1 hname).2⟩, hslot⟩
  | _ => exact happly

/-- An accepted edit restarts its model as the old row did, while the temperatures are in the range of a plant. -/
theorem restartRow (h : RowEdit value i property c i') (hnew : checkFields resources i' = .ok ())
    (htemperature : property = "ambient_temperature" ∨ property = "initial_temperature" →
      ∀ x, value.float? = some x → x.isFinite = true → inPlantRange x)
    {o' : Owner} (hrestart : o.restartRow i = .ok o') : o.restartRow i' = .ok o' := by
  cases h with
  | period _ ms _ => cases i <;> exact hrestart
  | plantName t name _ =>
    refine Owner.restartRow_replace (t := t) ?_ ?_ hrestart
    · rfl
    intro hplant
    obtain ⟨-, hrest⟩ := Owner.newThermalPlant_ok.1 hplant
    exact Owner.newThermalPlant_ok.2 ⟨Owner.validateName_of_displayName (checkFields_plant.1 hnew).1, hrest⟩
  | ambient t x hvalue =>
    refine Owner.restartRow_replace (t := t) ?_ ?_ hrestart
    · rfl
    intro hplant
    obtain ⟨hname, ⟨_, h2, h3, h4, h5, h6, _⟩, hrest⟩ := Owner.newThermalPlant_ok.1 hplant
    have hfinite := (checkFields_plant.1 hnew).2.2.1.1
    exact Owner.newThermalPlant_ok.2
      ⟨hname, ⟨hfinite, h2, h3, h4, h5, h6, htemperature (.inl rfl) x hvalue hfinite⟩, hrest⟩
  | initial t x hvalue =>
    refine Owner.restartRow_replace (t := t) ?_ ?_ hrestart
    · rfl
    intro hplant
    obtain ⟨hname, ⟨h1, _, h3, h4, h5, _, h7⟩, hrest⟩ := Owner.newThermalPlant_ok.1 hplant
    have hfinite := (checkFields_plant.1 hnew).2.2.1.2.1
    exact Owner.newThermalPlant_ok.2
      ⟨hname, ⟨h1, hfinite, h3, h4, h5, htemperature (.inr rfl) x hvalue hfinite, h7⟩, hrest⟩
  | gain t x _ =>
    refine Owner.restartRow_replace (t := t) ?_ ?_ hrestart
    · rfl
    intro hplant
    obtain ⟨hname, ⟨h1, h2, _, _, h5, h6, h7⟩, hrest⟩ := Owner.newThermalPlant_ok.1 hplant
    obtain ⟨_, _, hgain, hpositive, _⟩ := (checkFields_plant.1 hnew).2.2.1
    exact Owner.newThermalPlant_ok.2 ⟨hname, ⟨h1, h2, hgain, hpositive, h5, h6, h7⟩, hrest⟩
  | timeConstant t n _ =>
    refine Owner.restartRow_replace (t := t) ?_ ?_ hrestart
    · rfl
    intro hplant
    obtain ⟨hname, ⟨h1, h2, h3, h4, _, h6, h7⟩, hrest⟩ := Owner.newThermalPlant_ok.1 hplant
    have hn : n ≠ 0 := (checkFields_plant.1 hnew).2.2.1.2.2.2.2
    have htime : (ThermalPlantDto.config { t with timeConstantMs := n }).timeConstant ≠ 0 := by
      unfold ThermalPlantDto.config
      dsimp only
      omega
    exact Owner.newThermalPlant_ok.2 ⟨hname, ⟨h1, h2, h3, h4, htime, h6, h7⟩, hrest⟩
  | _ => exact hrestart

/-! #### Edits that the validator accepts -/

/-- A cadence within its published bounds is accepted in every row. -/
theorem checkFields_period {period : ℕ} {minimum : ℤ} (hold : checkFields resources i = .ok ())
    (hmember : pollPeriodMetadata i.pollPeriodMs minimum ∈ i.propertyMetadata) (hleast : minimum ≤ period) (hmost : period ≤ 60000) :
    checkFields resources (i.withPollPeriod period) = .ok () := by
  have hvalid : 1 ≤ period → validatePeriod period "poll period" = .ok () := fun hpos => refuse_ok.2 (by omega)
  cases i with
  | virtualMeasurement v =>
    obtain ⟨h1, h2, h3, _⟩ := checkFields_virtual.1 hold
    have hminimum : minimum = 1 := by
      simpa [InstrumentDto.propertyMetadata, InstrumentDto.pollPeriodMs, pollPeriodMetadata, displayNameMetadata,
        reinitializeMetadata] using hmember
    exact checkFields_virtual.2 ⟨h1, h2, h3, hvalid (by omega)⟩
  | thermalPlant t =>
    obtain ⟨h1, h2, h3, _⟩ := checkFields_plant.1 hold
    have hminimum : minimum = 1 := by
      simpa [InstrumentDto.propertyMetadata, InstrumentDto.pollPeriodMs, pollPeriodMetadata, displayNameMetadata,
        reinitializeMetadata] using hmember
    exact checkFields_plant.2 ⟨h1, h2, h3, hvalid (by omega)⟩
  | metakon m =>
    obtain ⟨h1, h2, _, h4, h5⟩ := checkFields_metakon.1 hold
    have hminimum : minimum = 1 := by
      simpa [InstrumentDto.propertyMetadata, InstrumentDto.pollPeriodMs, pollPeriodMetadata] using hmember
    exact checkFields_metakon.2 ⟨h1, h2, hvalid (by omega), h4, h5⟩
  | simpleDevice s =>
    obtain ⟨h1, h2, _, h4, h5⟩ := checkFields_simple.1 hold
    have hminimum : minimum = 10 := by
      simpa [InstrumentDto.propertyMetadata, InstrumentDto.pollPeriodMs, pollPeriodMetadata] using hmember
    exact checkFields_simple.2 ⟨h1, h2, ⟨by show 10 ≤ period; omega, hmost⟩, h4, h5⟩

end RowEdit
end LabRuntime.Deployment
