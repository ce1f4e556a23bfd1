import LabRuntime.Deployment.Frozen
import LabRuntime.Lib.Decimal

/-! How a candidate differs from the active deployment: the flags of the classification and the effects they stand for. -/

namespace LabRuntime.Deployment

open LabRuntime

def boolText (b : Bool) : String := if b then "true" else "false"

theorem boolText_injective {a b : Bool} (h : boolText a = boolText b) : a = b := by
  revert h
  cases a <;> cases b <;> decide

/-- Two finite numbers are written differently. -/
def Displays (display : F64 → String) : Prop :=
  ∀ x y : F64, x.isFinite = true → y.isFinite = true → display x = display y → x = y

/-- Fields with colons between them. -/
def colonSeparated : List String → String
  | [] => ""
  | [field] => field
  | field :: fields => field ++ (":" ++ colonSeparated fields)

theorem colonSeparated_cons {field : String} {fields : List String} (h : fields ≠ []) :
    colonSeparated (field :: fields) = field ++ (":" ++ colonSeparated fields) := by
  cases fields with
  | nil => exact absurd rfl h
  | cons _ _ => rfl

/-- One field of two texts that agree in the others. -/
theorem colonSeparated_field (before : List String) {after : List String} {x y : String}
    (h : colonSeparated (before ++ x :: after) = colonSeparated (before ++ y :: after)) : x = y := by
  induction before with
  | nil =>
    cases after with
    | nil => exact h
    | cons z after => exact (String.append_left_inj _).1 h
  | cons z before ih =>
    rw [List.cons_append, List.cons_append, colonSeparated_cons (by simp), colonSeparated_cons (by simp)] at h
    exact ih ((String.append_right_inj _).1 ((String.append_right_inj _).1 h))

def VirtualMeasurementDto.withoutLiveFields (display : F64 → String) (v : VirtualMeasurementDto) : String :=
  colonSeparated ["virtual", v.id.repr, v.key, v.historyCapacity.repr, display v.baseTemperature,
    boolText v.measurementEnabled, boolText v.externalPublication]

def ThermalPlantDto.withoutLiveFields (display : F64 → String) (t : ThermalPlantDto) : String :=
  colonSeparated ["plant", t.id.repr, t.key, t.historyCapacity.repr, display t.ambientTemperature,
    display t.initialTemperature, display t.gainPerPercent, t.timeConstantMs.repr]

def MetakonDto.withoutLiveFields (m : MetakonDto) : String :=
  colonSeparated ["metakon", m.id.repr, m.key, m.definition.text, m.resourceId.repr, m.address.repr,
    m.queueTimeoutMs.repr, m.transactionTimeoutMs.repr]

def SimpleDeviceDto.withoutLiveFields (s : SimpleDeviceDto) : String :=
  colonSeparated ["simple", s.id.repr, s.key, s.definition.text, s.resourceId.repr, s.address.toNat.repr,
    s.channel.toNat.repr, s.queueTimeoutMs.repr, s.transactionTimeoutMs.repr, s.historyCapacity.repr]

/-- The fields other than display name and cadence, as one text. -/
def InstrumentDto.withoutLiveFields (display : F64 → String) : InstrumentDto → String
  | .virtualMeasurement v => v.withoutLiveFields display
  | .thermalPlant t => t.withoutLiveFields display
  | .metakon m => m.withoutLiveFields
  | .simpleDevice s => s.withoutLiveFields

/-! ### Rows -/

def frozenDiffers : InstrumentDto → InstrumentDto → Bool
  | .simpleDevice old, .simpleDevice new =>
    old.definition != new.definition || old.resourceId != new.resourceId || old.address != new.address ||
      old.channel != new.channel || old.queueTimeoutMs != new.queueTimeoutMs ||
      old.transactionTimeoutMs != new.transactionTimeoutMs || old.historyCapacity != new.historyCapacity
  | _, _ => false

def nameDiffers : InstrumentDto → InstrumentDto → Bool
  | .virtualMeasurement old, .virtualMeasurement new => old.displayName != new.displayName
  | .thermalPlant old, .thermalPlant new => old.displayName != new.displayName
  | .simpleDevice old, .simpleDevice new => old.displayName != new.displayName
  | _, _ => false

def periodDiffers (old new : InstrumentDto) : Bool := old.pollPeriodMs != new.pollPeriodMs

def bindingDiffers (display : F64 → String) (old new : InstrumentDto) : Bool :=
  ((old.kind == .metakon && new.kind == .metakon) || (old.kind == .simpleDevice && new.kind == .simpleDevice)) &&
    old.withoutLiveFields display != new.withoutLiveFields display

def modelDiffers (display : F64 → String) (old new : InstrumentDto) : Bool :=
  ((old.kind == .thermalPlant && new.kind == .thermalPlant) ||
      (old.kind == .virtualMeasurement && new.kind == .virtualMeasurement)) &&
    old.withoutLiveFields display != new.withoutLiveFields display

/-- Some pair of rows at the same place. -/
def zipAny {α : Type} (test : α → α → Bool) (old new : List α) : Bool := (old.zip new).any fun pair => test pair.1 pair.2

/-! ### The classification -/

structure DeploymentChanges where
  restartRequired : Bool
  liveSafe : Bool
  ordinaryLive : Bool
  reinitialization : Bool
  rebind : Bool
  controllerRewarm : Bool
  safeBarrier : Bool
  deriving DecidableEq, Repr

/-- A compiled definition is what its canonical bytes spell. -/
instance : BEq Simple.CompiledSimpleDefinition := ⟨fun a b =>
  a.formatVersion == b.formatVersion && a.definitionId == b.definitionId && a.definitionVersion == b.definitionVersion &&
    a.canonical == b.canonical⟩

def instrumentTopology (dto : DeploymentDto) : List (ℕ × String × String) :=
  dto.instruments.map fun i => (i.id, i.key, i.kindName)

def resourceTopology (dto : DeploymentDto) : List (ℕ × String × ResourceKindDto) :=
  dto.resources.map fun r => (r.id, r.key, r.kind)

/-- The identities of the artifacts; both kinds of artifact are definitions. -/
def definitionIdentities (d : FrozenDeployment) : List (PathBuf × List UInt8) :=
  d.artifacts.map fun a => (a.declaredPath, a.sha256)

def FrozenDeployment.changesFrom (display : F64 → String) (d active : FrozenDeployment) : DeploymentChanges :=
  let old := active.dto
  let new := d.dto
  let rebind := old.resources != new.resources || definitionIdentities d != definitionIdentities active ||
    zipAny (bindingDiffers display) old.instruments new.instruments
  let reinitialization := zipAny (modelDiffers display) old.instruments new.instruments ||
    old.managedComponents != new.managedComponents
  let controllerRewarm := reinitialization || rebind || old.references != new.references || old.controllers != new.controllers
  { restartRequired := old.runtime.key != new.runtime.key || old.server != new.server || old.recording != new.recording ||
      instrumentTopology old != instrumentTopology new || resourceTopology old != resourceTopology new ||
      old.managedComponents.length != new.managedComponents.length || old.references.length != new.references.length ||
      old.controllers.length != new.controllers.length || old.safeProfiles.length != new.safeProfiles.length ||
      d.simpleDefinitions != active.simpleDefinitions || zipAny frozenDiffers old.instruments new.instruments
    liveSafe := d.tomlHash != active.tomlHash || old.runtime.displayName != new.runtime.displayName ||
      zipAny nameDiffers old.instruments new.instruments
    ordinaryLive := zipAny periodDiffers old.instruments new.instruments
    reinitialization := reinitialization
    rebind := rebind
    controllerRewarm := controllerRewarm
    safeBarrier := controllerRewarm || old.safeProfiles != new.safeProfiles }

/-- In the order of their severity. -/
inductive DiffEffect
  | liveSafe | ordinaryLive | reinitialization | transportRebind | controllerRewarm | outputSafeBarrier | restartRequired
  deriving DecidableEq, Repr

def DiffEffect.severity : DiffEffect → ℕ
  | .liveSafe => 0
  | .ordinaryLive => 1
  | .reinitialization => 2
  | .transportRebind => 3
  | .controllerRewarm => 4
  | .outputSafeBarrier => 5
  | .restartRequired => 6

def DeploymentChanges.effects (changes : DeploymentChanges) : List DiffEffect :=
  [(changes.liveSafe, DiffEffect.liveSafe), (changes.ordinaryLive, .ordinaryLive), (changes.reinitialization, .reinitialization),
    (changes.rebind, .transportRebind), (changes.controllerRewarm, .controllerRewarm),
    (changes.safeBarrier, .outputSafeBarrier), (changes.restartRequired, .restartRequired)].filterMap
      fun flag => if flag.1 then some flag.2 else none

/-- The effect that a mutation class announces. -/
def MutationClass.effect : MutationClass → DiffEffect
  | .liveSafe => .liveSafe
  | .ordinaryLive => .ordinaryLive
  | .reinitialization => .reinitialization
  | .rebindRequired => .transportRebind

/-- Effects that are no stronger than the class: what is reset makes its controllers warm again behind a safe barrier. -/
def MutationClass.covers (c : MutationClass) (effect : DiffEffect) : Bool :=
  decide (effect.severity ≤ c.effect.severity) ||
    (c == .reinitialization && (effect == .controllerRewarm || effect == .outputSafeBarrier))

/-- The announced effect is there and no effect beyond the class. -/
def Classified (c : MutationClass) (changes : DeploymentChanges) : Prop :=
  c.effect ∈ changes.effects ∧ ∀ effect ∈ changes.effects, c.covers effect = true

instance (c : MutationClass) (changes : DeploymentChanges) : Decidable (Classified c changes) := by
  unfold Classified
  infer_instance

/-! ### Rows at their place -/

instance : ReflBEq PathBuf := ⟨fun {p} => by
  show (p.isAbsolute == p.isAbsolute && p.parts == p.parts) = true
  simp⟩

instance : ReflBEq Simple.CompiledSimpleDefinition := ⟨fun {a} => by
  show (a.formatVersion == a.formatVersion && a.definitionId == a.definitionId && a.definitionVersion == a.definitionVersion &&
    a.canonical == a.canonical) = true
  simp⟩

theorem bne_self {α : Type} [BEq α] [ReflBEq α] (a : α) : (a != a) = false := by simp [bne]

theorem zipAny_self {α : Type} {test : α → α → Bool} {xs : List α} (h : ∀ x ∈ xs, test x x = false) : zipAny test xs xs = false := by
  induction xs with
  | nil => rfl
  | cons x xs ih =>
    show (test x x || zipAny test xs xs) = false
    rw [h x List.mem_cons_self, ih fun y hy => h y (List.mem_cons_of_mem _ hy)]
    rfl

/-- Where the other rows do not differ, the edited one decides. -/
theorem zipAny_replace {α : Type} {test : α → α → Bool} {before after : List α} {x y : α}
    (h : ∀ z ∈ before ++ x :: after, test z z = false) :
    zipAny test (before ++ x :: after) (before ++ y :: after) = test x y := by
  induction before with
  | nil =>
    show (test x y || zipAny test after after) = test x y
    rw [zipAny_self fun z hz => h z (List.mem_cons_of_mem _ hz), Bool.or_false]
  | cons z before ih =>
    show (test z z || zipAny test (before ++ x :: after) (before ++ y :: after)) = test x y
    rw [h z List.mem_cons_self, Bool.false_or]
    exact ih fun w hw => h w (List.mem_cons_of_mem _ hw)

variable {display : F64 → String} {i : InstrumentDto}

theorem frozenDiffers_self : frozenDiffers i i = false := by
  cases i with
  | simpleDevice s => simp [frozenDiffers, bne_self]
  | _ => rfl

theorem nameDiffers_self : nameDiffers i i = false := by
  cases i with
  | metakon m => rfl
  | _ => simp [nameDiffers]

theorem periodDiffers_self : periodDiffers i i = false := by simp [periodDiffers]

theorem bindingDiffers_self : bindingDiffers display i i = false := by simp [bindingDiffers]

theorem modelDiffers_of_eq {i' : InstrumentDto} (h : i.withoutLiveFields display = i'.withoutLiveFields display) :
    modelDiffers display i i' = false := by
  unfold modelDiffers
  rw [h, bne_self, Bool.and_false]

theorem modelDiffers_of_ne {i' : InstrumentDto}
    (hkind : i.kind = .virtualMeasurement ∧ i'.kind = .virtualMeasurement ∨ i.kind = .thermalPlant ∧ i'.kind = .thermalPlant)
    (h : i.withoutLiveFields display ≠ i'.withoutLiveFields display) : modelDiffers display i i' = true := by
  unfold modelDiffers
  rw [bne_iff_ne.2 h]
  rcases hkind with ⟨h, h'⟩ | ⟨h, h'⟩ <;> rw [h, h'] <;> rfl

theorem modelDiffers_self : modelDiffers display i i = false := by simp [modelDiffers]

end LabRuntime.Deployment
