import LabRuntime.Deployment.Accepted

/-! The configuration of an accepted component: the window of the one registered implementation, and what is
composed of it. -/

namespace LabRuntime.Deployment

open LabRuntime

/-- The window that a configuration holds, within its registered bounds. -/
structure HasWindow (c : ManagedComponentDto) (window : ℤ) : Prop where
  implementation : c.implementation = MovingMean.implementation.value
  entries : c.config.entries = [(MovingMean.windowField, .integer window)]
  least : 2 ≤ window
  most : window ≤ 64

theorem validatePropertyShape_ok {c : ManagedComponentDto} {properties : List ComponentPropertyMetadata} :
    c.validatePropertyShape properties = .ok () ↔
      c.config.size = properties.length ∧
        ∀ property ∈ properties, ∃ value, c.config.get property.id = some value ∧ ManagedComponentDto.fits property value = true := by
  unfold ManagedComponentDto.validatePropertyShape
  rw [Checks.bind_ok]
  constructor
  · rintro ⟨_, hsize, h⟩
    refine ⟨not_not.1 (refuse_ok.1 hsize), ?_⟩
    intro property hmem
    have hproperty := Checks.forM_ok.1 h property hmem
    cases hget : c.config.get property.id with
    | none =>
      rw [hget] at hproperty
      cases hproperty
    | some value =>
      rw [hget] at hproperty
      exact ⟨value, rfl, by simpa [refuse_ok] using hproperty⟩
  · rintro ⟨hsize, h⟩
    refine ⟨(), refuse_ok.2 (not_not.2 hsize), Checks.forM_ok.2 ?_⟩
    intro property hmem
    obtain ⟨value, hget, hfits⟩ := h property hmem
    rw [hget]
    exact refuse_ok.2 (by simp [hfits])

/-- An integer property takes integers within its bounds. -/
theorem fits_window {value : TomlValue} {property : ComponentPropertyMetadata} (hmem : property ∈ movingMeanProperties) :
    ManagedComponentDto.fits property value = true ↔ ∃ window, value = .integer window ∧ 2 ≤ window ∧ window ≤ 64 := by
  rw [List.mem_singleton.1 hmem]
  cases value <;> simp [ManagedComponentDto.fits]

theorem implementation_of_properties {implementation : String} (h : componentPropertyMetadata implementation ≠ []) :
    implementation = MovingMean.implementation.value := by
  unfold componentPropertyMetadata at h
  split_ifs at h with heq
  · exact heq
  · exact absurd rfl h

theorem properties_of_implementation {implementation : String} (h : implementation = MovingMean.implementation.value) :
    componentPropertyMetadata implementation = movingMeanProperties := if_pos h

theorem hasWindow_of_shape {c : ManagedComponentDto} (himplementation : c.implementation = MovingMean.implementation.value)
    (h : c.validatePropertyShape movingMeanProperties = .ok ()) : ∃ window, HasWindow c window := by
  obtain ⟨hsize, hproperties⟩ := validatePropertyShape_ok.1 h
  obtain ⟨value, hget, hfits⟩ := hproperties _ (List.mem_singleton.2 rfl)
  obtain ⟨window, rfl, hleast, hmost⟩ := (fits_window (List.mem_singleton.2 rfl)).1 hfits
  obtain ⟨entry, hentry⟩ := List.length_eq_one_iff.1 hsize
  have hmem := c.config.mem_entries.2 hget
  rw [hentry, List.mem_singleton] at hmem
  exact ⟨window, himplementation, by rw [hentry, ← hmem], hleast, hmost⟩

theorem HasWindow.shape {c : ManagedComponentDto} {window : ℤ} (h : HasWindow c window) :
    c.validatePropertyShape (componentPropertyMetadata c.implementation) = .ok () := by
  rw [properties_of_implementation h.implementation]
  refine validatePropertyShape_ok.2 ⟨by rw [OrderedMap.size, h.entries]; rfl, ?_⟩
  intro property hmem
  refine ⟨.integer window, c.config.mem_entries.1 ?_, (fits_window hmem).2 ⟨window, rfl, h.least, h.most⟩⟩
  rw [h.entries, List.mem_singleton.1 hmem]
  exact List.mem_singleton.2 rfl

/-- Every accepted component has a window. -/
theorem checkComponent_window {ids : List ℕ} {seen seen' : ManagedSeen} {c : ManagedComponentDto}
    (h : checkComponent ids seen c = .ok seen') : ∃ window, HasWindow c window := by
  obtain ⟨_, _, _, _, _, _, hproperties, hshape, _⟩ := checkComponent_ok.1 h
  have himplementation := implementation_of_properties hproperties
  rw [properties_of_implementation himplementation] at hshape
  exact hasWindow_of_shape himplementation hshape

/-! ### What is composed of a window -/

/-- The configuration of one number under the window's name. -/
def numberConfig (x : F64) : PlainData F64 := ⟨OrderedMap.empty.insert MovingMean.windowField (.number x)⟩

def windowConfig (window : ℤ) : PlainData F64 := numberConfig (F64.ofInt window)

/-- A window within its bounds is a whole number of `f64` that reads back. -/
theorem window_exact : ∀ window ∈ List.range' 2 63, (F64.ofInt (window : ℕ)).isFinite = true ∧
    Scalar.same (Scalar.fract (F64.ofInt (window : ℕ))) (Scalar.ofInt 0) = true ∧
    Scalar.le (Scalar.ofInt 2) (F64.ofInt (window : ℕ)) = true ∧ Scalar.le (F64.ofInt (window : ℕ)) (Scalar.ofInt 64) = true ∧
    Scalar.toNat (F64.ofInt (window : ℕ)) = window := by
  decide +kernel

theorem window_exact' {window : ℤ} (hleast : 2 ≤ window) (hmost : window ≤ 64) : (F64.ofInt window).isFinite = true ∧
    Scalar.same (Scalar.fract (F64.ofInt window)) (Scalar.ofInt 0) = true ∧
    Scalar.le (Scalar.ofInt 2) (F64.ofInt window) = true ∧ Scalar.le (F64.ofInt window) (Scalar.ofInt 64) = true ∧
    Scalar.toNat (F64.ofInt window) = window.toNat := by
  have hmem : window.toNat ∈ List.range' 2 63 := by
    rw [List.mem_range'_1]
    omega
  have hcast : ((window.toNat : ℕ) : ℤ) = window := by omega
  have h := window_exact window.toNat hmem
  rw [hcast] at h
  exact h

theorem numberConfig_valid {x : F64} (hfinite : x.isFinite = true) : (numberConfig x).validate = .ok () := by
  have hkey : PlainData.keyValid MovingMean.windowField = true := by decide +kernel
  have hsize : MovingMean.windowField.utf8ByteSize = 6 := by decide +kernel
  have hmeasure : PlainData.measure (PlainValue.number x) = some (1, 9) := if_pos hfinite
  have hcount : PlainData.countField (0, 0) (MovingMean.windowField, PlainValue.number x) = .ok (16, 1) := by
    unfold PlainData.countField
    rw [hkey, hmeasure, hsize]
    simp [maxPlainBytes]
  have hfields : (numberConfig x).fields.entries = [(MovingMean.windowField, .number x)] := rfl
  unfold PlainData.validate
  rw [hfields, Checks.reject_pass (by simp), Checks.ok_bind, List.foldlM_cons, hcount, Checks.ok_bind]
  rfl

theorem plainConfig_number {c : ManagedComponentDto} {value : TomlValue} {x : F64}
    (hentries : c.config.entries = [(MovingMean.windowField, value)]) (hvalue : ManagedComponentDto.plainValue value = .ok (.number x))
    (hfinite : x.isFinite = true) : c.plainConfig = .ok (numberConfig x) := by
  unfold ManagedComponentDto.plainConfig
  rw [hentries, List.foldlM_cons, hvalue, Checks.ok_bind]
  have hvalid : PlainData.validate ⟨OrderedMap.empty.insert MovingMean.windowField (.number x)⟩ = .ok () :=
    numberConfig_valid hfinite
  simp only [List.foldlM_nil, pure_bind, hvalid]
  rfl

theorem plainConfig_window {c : ManagedComponentDto} {window : ℤ} (h : HasWindow c window) :
    c.plainConfig = .ok (windowConfig window) :=
  plainConfig_number h.entries rfl (window_exact' h.least h.most).1

theorem configuredWindow_window {window : ℤ} (hleast : 2 ≤ window) (hmost : window ≤ 64) :
    MovingMean.configuredWindow (windowConfig window) = .ok window.toNat := by
  obtain ⟨hfinite, hfract, hle, hge, hnat⟩ := window_exact' hleast hmost
  have hget : (windowConfig window).fields.get MovingMean.windowField = some (.number (F64.ofInt window)) :=
    OrderedMap.get_insert_self _
  have hsize : (windowConfig window).fields.size = 1 := rfl
  unfold MovingMean.configuredWindow
  rw [if_neg (not_not.2 hsize), hget]
  dsimp only
  rw [if_neg, hnat]
  rintro (hbad | hbad | hbad)
  · exact absurd (hfinite.symm.trans hbad) (by decide)
  · exact absurd (hfract.symm.trans hbad) (by decide)
  · exact hbad ⟨hle, hge⟩

/-- The composed definition: its warm-up is the window. -/
theorem build_window {c : ManagedComponentDto} {window : ℤ} (h : HasWindow c window) (input : SignalId)
    (hinput : (c.native (windowConfig window)).input = some input) :
    ∃ definition, buildComponentDefinition c.implementation (c.native (windowConfig window)) = .ok definition ∧
      definition.manifest.warmupSamples = window.toNat := by
  unfold buildComponentDefinition
  rw [if_pos h.implementation]
  unfold MovingMean.compose
  rw [hinput]
  have hwindow : MovingMean.configuredWindow (c.native (windowConfig window)).config = .ok window.toNat :=
    configuredWindow_window h.least h.most
  dsimp only
  rw [hwindow]
  exact ⟨_, rfl, rfl⟩

/-- Only a component with an input is composed. -/
theorem input_of_build {implementation : String} {request : NativeComponentDefinition F64} {definition : ComponentDefinition F64}
    (h : buildComponentDefinition implementation request = .ok definition) : ∃ input, request.input = some input := by
  unfold buildComponentDefinition at h
  split_ifs at h
  unfold MovingMean.compose at h
  split at h
  · cases h
  next input hinput => exact ⟨input, hinput⟩

/-! ### Edits of a component -/

theorem hasWindow_insert {c : ManagedComponentDto} {window : ℤ} (h : HasWindow c window) {value : ℤ} (hleast : 2 ≤ value)
    (hmost : value ≤ 64) : HasWindow { c with config := c.config.insert MovingMean.windowField (.integer value) } value := by
  refine ⟨h.implementation, ?_, hleast, hmost⟩
  show (c.config.entries.filter fun e => decide (e.1 < MovingMean.windowField)) ++ (MovingMean.windowField, .integer value) ::
    (c.config.entries.filter fun e => decide (MovingMean.windowField < e.1)) = _
  rw [h.entries, List.filter_cons_of_neg (by simp), List.filter_cons_of_neg (by simp)]
  rfl

/-- Setting the window it has leaves a component as it is. -/
theorem insert_window {c : ManagedComponentDto} {window : ℤ} (h : HasWindow c window) :
    { c with config := c.config.insert MovingMean.windowField (.integer window) } = c := by
  have hconfig : c.config.insert MovingMean.windowField (.integer window) = c.config := by
    refine OrderedMap.ext_get fun key => ?_
    rw [OrderedMap.get_insert]
    split_ifs with hkey
    · rw [hkey]
      exact (c.config.mem_entries.1 (h.entries ▸ List.mem_singleton.2 rfl)).symm
    · rfl
  rw [hconfig]

/-- A component with a window passes wherever one with another window did. -/
theorem checkComponent_window_replace {ids : List ℕ} {seen seen' : ManagedSeen} {c : ManagedComponentDto} {window value : ℤ}
    (hwindow : HasWindow c window) (hleast : 2 ≤ value) (hmost : value ≤ 64) (h : checkComponent ids seen c = .ok seen') :
    checkComponent ids seen { c with config := c.config.insert MovingMean.windowField (.integer value) } = .ok seen' := by
  have hnew := hasWindow_insert hwindow hleast hmost
  obtain ⟨h1, h2, h3, h4, h5, h6, h7, -, ⟨config, -, definition, hbuild⟩, hrest⟩ := checkComponent_ok.1 h
  obtain ⟨input, hinput⟩ := input_of_build hbuild
  obtain ⟨definition', hbuild', -⟩ := build_window hnew input hinput
  exact checkComponent_ok.2 ⟨h1, h2, h3, h4, h5, h6, h7, hnew.shape, ⟨_, plainConfig_window hnew, definition', hbuild'⟩, hrest⟩

theorem checkComponent_period_replace {ids : List ℕ} {seen seen' : ManagedSeen} {c : ManagedComponentDto} {period : ℕ}
    (hperiod : 1 ≤ period ∧ period ≤ 60000) (h : checkComponent ids seen c = .ok seen') :
    checkComponent ids seen { c with periodMs := period } = .ok seen' := by
  obtain ⟨h1, h2, h3, h4, -, hrest⟩ := checkComponent_ok.1 h
  exact checkComponent_ok.2 ⟨h1, h2, h3, h4, refuse_ok.2 (not_not.2 hperiod), hrest⟩

end LabRuntime.Deployment
