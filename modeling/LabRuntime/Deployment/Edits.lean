import LabRuntime.Deployment.LiveApply
import LabRuntime.Deployment.Properties
import LabRuntime.Deployment.Windows

/-! One edited row. An edit of an instrument is one of ten, by the property it sets; each keeps what the other
tables see of the row. -/

namespace LabRuntime.Deployment

open LabRuntime

/-! ### The edited row of a list -/

theorem editFirst_some {α : Type} {test : α → Bool} {edit : α → Option α} {xs ys : List α}
    (h : editFirst test edit xs = some ys) :
    ∃ before x x' after, xs = before ++ x :: after ∧ test x = true ∧ edit x = some x' ∧ ys = before ++ x' :: after := by
  induction xs generalizing ys with
  | nil => cases h
  | cons x xs ih =>
    unfold editFirst at h
    split_ifs at h with htest
    · obtain ⟨x', hedit, rfl⟩ := Option.map_eq_some_iff.1 h
      exact ⟨[], x, x', xs, rfl, htest, hedit, rfl⟩
    · obtain ⟨zs, hrest, rfl⟩ := Option.map_eq_some_iff.1 h
      obtain ⟨before, y, y', after, rfl, hy, hedit, rfl⟩ := ih hrest
      exact ⟨x :: before, y, y', after, rfl, hy, hedit, rfl⟩

/-- Rows with different keys are told apart by them. -/
theorem eq_of_key {α : Type} {key : α → ℕ} {xs : List α} (hnodup : (xs.map key).Nodup) {x y : α} (hx : x ∈ xs) (hy : y ∈ xs)
    (heq : key x = key y) : x = y :=
  List.inj_on_of_nodup_map hnodup hx hy heq

/-! ### Instruments -/

/-- The edits of an instrument: the property, its class and the edited row. -/
inductive RowEdit (value : PropertyValue) : InstrumentDto → String → MutationClass → InstrumentDto → Prop
  | period (i : InstrumentDto) (period : ℕ) : value.unsigned? = some period →
      RowEdit value i "poll_period_ms" .ordinaryLive (i.withPollPeriod period)
  | virtualName (v : VirtualMeasurementDto) (name : String) : value.text? = some name →
      RowEdit value (.virtualMeasurement v) "display_name" .liveSafe (.virtualMeasurement { v with displayName := name })
  | plantName (t : ThermalPlantDto) (name : String) : value.text? = some name →
      RowEdit value (.thermalPlant t) "display_name" .liveSafe (.thermalPlant { t with displayName := name })
  | base (v : VirtualMeasurementDto) (x : F64) : value.float? = some x →
      RowEdit value (.virtualMeasurement v) "base_temperature" .reinitialization (.virtualMeasurement { v with baseTemperature := x })
  | measurement (v : VirtualMeasurementDto) (b : Bool) : value.bool? = some b →
      RowEdit value (.virtualMeasurement v) "measurement_enabled" .reinitialization
        (.virtualMeasurement { v with measurementEnabled := b })
  | publication (v : VirtualMeasurementDto) (b : Bool) : value.bool? = some b →
      RowEdit value (.virtualMeasurement v) "external_publication" .reinitialization
        (.virtualMeasurement { v with externalPublication := b })
  | ambient (t : ThermalPlantDto) (x : F64) : value.float? = some x →
      RowEdit value (.thermalPlant t) "ambient_temperature" .reinitialization (.thermalPlant { t with ambientTemperature := x })
  | initial (t : ThermalPlantDto) (x : F64) : value.float? = some x →
      RowEdit value (.thermalPlant t) "initial_temperature" .reinitialization (.thermalPlant { t with initialTemperature := x })
  | gain (t : ThermalPlantDto) (x : F64) : value.float? = some x →
      RowEdit value (.thermalPlant t) "gain_per_percent" .reinitialization (.thermalPlant { t with gainPerPercent := x })
  | timeConstant (t : ThermalPlantDto) (n : ℕ) : value.unsigned? = some n →
      RowEdit value (.thermalPlant t) "time_constant_ms" .reinitialization (.thermalPlant { t with timeConstantMs := n })

/-- A value set under the name of a published property is one of these edits. -/
theorem rowEdit_of_metadata {i i' : InstrumentDto} {m : InstrumentPropertyMetadata} {value : PropertyValue}
    (hm : m ∈ i.propertyMetadata) (h : i.withProperty m.id value = some i') : RowEdit value i m.id m.mutation i' := by
  cases i with
  | virtualMeasurement v =>
    simp only [InstrumentDto.propertyMetadata, List.mem_cons, List.not_mem_nil, or_false] at hm
    rcases hm with rfl | rfl | rfl | rfl | rfl
    · obtain ⟨x, hx, rfl⟩ := Option.map_eq_some_iff.1 (show value.text?.map _ = some i' from h)
      exact .virtualName v x hx
    · obtain ⟨x, hx, rfl⟩ := Option.map_eq_some_iff.1 (show value.unsigned?.map _ = some i' from h)
      exact .period _ x hx
    · obtain ⟨x, hx, rfl⟩ := Option.map_eq_some_iff.1 (show value.float?.map _ = some i' from h)
      exact .base v x hx
    · obtain ⟨x, hx, rfl⟩ := Option.map_eq_some_iff.1 (show value.bool?.map _ = some i' from h)
      exact .measurement v x hx
    · obtain ⟨x, hx, rfl⟩ := Option.map_eq_some_iff.1 (show value.bool?.map _ = some i' from h)
      exact .publication v x hx
  | thermalPlant t =>
    simp only [InstrumentDto.propertyMetadata, List.mem_cons, List.not_mem_nil, or_false] at hm
    rcases hm with rfl | rfl | rfl | rfl | rfl | rfl
    · obtain ⟨x, hx, rfl⟩ := Option.map_eq_some_iff.1 (show value.text?.map _ = some i' from h)
      exact .plantName t x hx
    · obtain ⟨x, hx, rfl⟩ := Option.map_eq_some_iff.1 (show value.unsigned?.map _ = some i' from h)
      exact .period _ x hx
    · obtain ⟨x, hx, rfl⟩ := Option.map_eq_some_iff.1 (show value.float?.map _ = some i' from h)
      exact .ambient t x hx
    · obtain ⟨x, hx, rfl⟩ := Option.map_eq_some_iff.1 (show value.float?.map _ = some i' from h)
      exact .initial t x hx
    · obtain ⟨x, hx, rfl⟩ := Option.map_eq_some_iff.1 (show value.float?.map _ = some i' from h)
      exact .gain t x hx
    · obtain ⟨x, hx, rfl⟩ := Option.map_eq_some_iff.1 (show value.unsigned?.map _ = some i' from h)
      exact .timeConstant t x hx
  | metakon _ | simpleDevice _ =>
    rw [List.mem_singleton.1 hm] at h ⊢
    obtain ⟨x, hx, rfl⟩ := Option.map_eq_some_iff.1 (show value.unsigned?.map _ = some i' from h)
    exact .period _ x hx

namespace RowEdit

variable {value : PropertyValue} {i i' : InstrumentDto} {property : String} {c : MutationClass}

theorem head_eq (h : RowEdit value i property c i') : i'.head = i.head := by
  cases h with
  | period => cases i <;> rfl
  | _ => rfl

/-- The frozen definitions are asked the same of both rows. -/
theorem metakon_eq (h : RowEdit value i property c i') (outside : Outside) (base : PathBuf) (artifacts : List FrozenArtifact)
    (resources : List ResourceDto) (references : List ReferenceDto) (controllers : List ControllerDto)
    (safeProfiles : List SafeProfileDto) :
    checkFrozenMetakon outside base artifacts resources references controllers safeProfiles i' =
      checkFrozenMetakon outside base artifacts resources references controllers safeProfiles i := by
  cases h with
  | period => cases i <;> rfl
  | _ => rfl

theorem simple_eq (h : RowEdit value i property c i') (base : PathBuf)
    (definitions : List (PathBuf × Simple.CompiledSimpleDefinition)) (resources : List ResourceDto)
    (references : List ReferenceDto) (controllers : List ControllerDto) (safeProfiles : List SafeProfileDto) (seen : SimpleSeen) :
    checkFrozenSimple base definitions resources references controllers safeProfiles seen i' =
      checkFrozenSimple base definitions resources references controllers safeProfiles seen i := by
  cases h with
  | period => cases i <;> rfl
  | _ => rfl

/-! #### What differs -/

theorem frozen_eq (h : RowEdit value i property c i') : frozenDiffers i i' = false := by
  cases h with
  | period =>
    cases i with
    | simpleDevice s => exact frozenDiffers_self (i := .simpleDevice s)
    | _ => rfl
  | _ => rfl

theorem withoutLiveFields_withPollPeriod (display : F64 → String) (i : InstrumentDto) (period : ℕ) :
    (i.withPollPeriod period).withoutLiveFields display = i.withoutLiveFields display := by
  cases i <;> rfl

theorem binding_eq (h : RowEdit value i property c i') (display : F64 → String) : bindingDiffers display i i' = false := by
  cases h with
  | period => simp [bindingDiffers, withoutLiveFields_withPollPeriod]
  | _ => rfl

theorem name_eq (h : RowEdit value i property c i') (hne : i' ≠ i) : nameDiffers i i' = (c == .liveSafe) := by
  cases h with
  | period =>
    cases i with
    | metakon m => rfl
    | _ => simp [nameDiffers, InstrumentDto.withPollPeriod]
  | virtualName v name _ =>
    have hname : v.displayName ≠ name := fun heq => hne (by rw [← heq])
    simp [nameDiffers, hname]
  | plantName t name _ =>
    have hname : t.displayName ≠ name := fun heq => hne (by rw [← heq])
    simp [nameDiffers, hname]
  | _ => simp [nameDiffers]

theorem period_eq (h : RowEdit value i property c i') (hne : i' ≠ i) : periodDiffers i i' = (c == .ordinaryLive) := by
  cases h with
  | period _ ms _ =>
    have hperiod : i.pollPeriodMs ≠ ms := by
      rintro rfl
      exact hne (by cases i <;> rfl)
    cases i <;> simpa [periodDiffers, InstrumentDto.withPollPeriod, InstrumentDto.pollPeriodMs] using hperiod
  | _ => simp [periodDiffers, InstrumentDto.pollPeriodMs]

/-- A changed field of a model shows in the text that is compared. -/
theorem model_eq (h : RowEdit value i property c i') (hne : i' ≠ i) {display : F64 → String} (hdisplay : Displays display)
    {resources : List ResourceDto} (hold : checkFields resources i = .ok ()) (hnew : checkFields resources i' = .ok ()) :
    modelDiffers display i i' = (c == .reinitialization) := by
  cases h with
  | period => simp [modelDiffers, withoutLiveFields_withPollPeriod]
  | virtualName v name _ => exact modelDiffers_of_eq rfl
  | plantName t name _ => exact modelDiffers_of_eq rfl
  | base v x _ =>
    refine modelDiffers_of_ne (.inl ⟨rfl, rfl⟩) fun heq => hne ?_
    have htext := colonSeparated_field ["virtual", v.id.repr, v.key, v.historyCapacity.repr] heq
    have hx := hdisplay _ _ (checkFields_virtual.1 hold).2.2.1.1 (checkFields_virtual.1 hnew).2.2.1.1 htext
    exact congrArg (fun x => InstrumentDto.virtualMeasurement { v with baseTemperature := x }) hx.symm
  | measurement v b _ =>
    refine modelDiffers_of_ne (.inl ⟨rfl, rfl⟩) fun heq => hne ?_
    have htext := colonSeparated_field
      ["virtual", v.id.repr, v.key, v.historyCapacity.repr, display v.baseTemperature] heq
    exact congrArg (fun b => InstrumentDto.virtualMeasurement { v with measurementEnabled := b }) (boolText_injective htext).symm
  | publication v b _ =>
    refine modelDiffers_of_ne (.inl ⟨rfl, rfl⟩) fun heq => hne ?_
    have htext := colonSeparated_field
      ["virtual", v.id.repr, v.key, v.historyCapacity.repr, display v.baseTemperature,
        boolText v.measurementEnabled] heq
    exact congrArg (fun b => InstrumentDto.virtualMeasurement { v with externalPublication := b }) (boolText_injective htext).symm
  | ambient t x _ =>
    refine modelDiffers_of_ne (.inr ⟨rfl, rfl⟩) fun heq => hne ?_
    have htext := colonSeparated_field ["plant", t.id.repr, t.key, t.historyCapacity.repr] heq
    have hx := hdisplay _ _ (checkFields_plant.1 hold).2.2.1.1 (checkFields_plant.1 hnew).2.2.1.1 htext
    exact congrArg (fun x => InstrumentDto.thermalPlant { t with ambientTemperature := x }) hx.symm
  | initial t x _ =>
    refine modelDiffers_of_ne (.inr ⟨rfl, rfl⟩) fun heq => hne ?_
    have htext := colonSeparated_field
      ["plant", t.id.repr, t.key, t.historyCapacity.repr, display t.ambientTemperature] heq
    have hx := hdisplay _ _ (checkFields_plant.1 hold).2.2.1.2.1 (checkFields_plant.1 hnew).2.2.1.2.1 htext
    exact congrArg (fun x => InstrumentDto.thermalPlant { t with initialTemperature := x }) hx.symm
  | gain t x _ =>
    refine modelDiffers_of_ne (.inr ⟨rfl, rfl⟩) fun heq => hne ?_
    have htext := colonSeparated_field
      ["plant", t.id.repr, t.key, t.historyCapacity.repr, display t.ambientTemperature,
        display t.initialTemperature] heq
    have hx := hdisplay _ _ (checkFields_plant.1 hold).2.2.1.2.2.1 (checkFields_plant.1 hnew).2.2.1.2.2.1 htext
    exact congrArg (fun x => InstrumentDto.thermalPlant { t with gainPerPercent := x }) hx.symm
  | timeConstant t n _ =>
    refine modelDiffers_of_ne (.inr ⟨rfl, rfl⟩) fun heq => hne ?_
    have htext := colonSeparated_field
      ["plant", t.id.repr, t.key, t.historyCapacity.repr, display t.ambientTemperature,
        display t.initialTemperature, display t.gainPerPercent] heq
    exact congrArg (fun n => InstrumentDto.thermalPlant { t with timeConstantMs := n }) (Decimal.repr_injective htext).symm

end RowEdit
end LabRuntime.Deployment
