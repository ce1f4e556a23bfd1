import LabRuntime.Simple.Agreement
import LabRuntime.Simple.Plans

/-! Instances on a shared resource: what one of them takes as its answer, no other takes, and what
the compiler emits for one, Core registers. -/

namespace LabRuntime.Simple

open Checks

/-! ### Answers -/

/-- Whether some plan of a parameter takes a byte string as its answer. -/
def acceptsAnswer (p : SimpleParameterConfig) (bytes : List UInt8) : Bool :=
  p.read.any (fun read => (read.response.decodeScalar bytes).isSome) ||
    p.write.any fun write => write.ack.accepts bytes ||
      write.readback.any fun readback => (readback.response.decodeScalar bytes).isSome

def CompiledSimpleInstance.accepts (compiled : CompiledSimpleInstance) (bytes : List UInt8) : Bool :=
  compiled.parameters.any fun p => acceptsAnswer p bytes

/-- The bytes that a list of comparisons fixes are those of the answer. -/
def Carries (bytes : List UInt8) (instances : InstanceMatches) : Prop :=
  ∀ m ∈ instances, slice bytes m.1 m.2.length = some m.2

theorem carries_of_all {bytes : List UInt8} {ms : List SimpleResponseMatch}
    (h : (ms.all fun m => m.holds bytes) = true) : Carries bytes (instancesOf ms) := by
  intro pair hpair
  obtain ⟨m, hm, rfl⟩ := List.mem_map.1 hpair
  have hholds := List.all_eq_true.1 h m (List.mem_filter.1 hm).1
  exact beq_iff_eq.1 hholds

theorem carries_of_decode {plan : SimpleResponsePlan} {bytes : List UInt8}
    (h : (plan.decodeScalar bytes).isSome = true) : Carries bytes (instancesOf plan.matches) := by
  unfold SimpleResponsePlan.decodeScalar at h
  split_ifs at h with hevidence
  · cases h
  · simp only [not_or, Bool.not_eq_false] at hevidence
    exact carries_of_all hevidence.2.1

theorem carries_of_ack {plan : SimpleAckPlan} {bytes : List UInt8} (h : plan.accepts bytes = true) :
    Carries bytes (instancesOf plan.matches) := by
  unfold SimpleAckPlan.accepts at h
  simp only [Bool.and_eq_true] at h
  exact carries_of_all h.1.2

/-- An accepted answer carries the instance of the plan that takes it. -/
theorem carries_of_accepts {p : SimpleParameterConfig} {bytes : List UInt8} (h : acceptsAnswer p bytes = true) :
    ∃ instances ∈ planInstances p, Carries bytes instances := by
  unfold acceptsAnswer at h
  rw [Bool.or_eq_true] at h
  rcases h with h | h
  · obtain ⟨read, hread, h⟩ := (Option.any_eq_true _ _).1 h
    exact ⟨_, by simp [planInstances, hread], carries_of_decode h⟩
  · obtain ⟨write, hwrite, h⟩ := (Option.any_eq_true _ _).1 h
    rw [Bool.or_eq_true] at h
    rcases h with h | h
    · exact ⟨_, by simp [planInstances, hwrite, writeInstances], carries_of_ack h⟩
    · obtain ⟨readback, hreadback, h⟩ := (Option.any_eq_true _ _).1 h
      refine ⟨instancesOf readback.response.matches, ?_, carries_of_decode h⟩
      simp [planInstances, hwrite, writeInstances, hreadback]

/-- Distinguished comparisons never hold of one byte string. -/
theorem apart_of_differ {left right : ℕ × List UInt8} {bytes : List UInt8} (h : matchesDiffer left right = true)
    (hleft : slice bytes left.1 left.2.length = some left.2) (hright : slice bytes right.1 right.2.length = some right.2) :
    False := by
  obtain ⟨offset, hoffset, hdiffer⟩ := List.any_eq_true.1 h
  rw [List.mem_range'_1] at hoffset
  have hbyte : ∀ m : ℕ × List UInt8, slice bytes m.1 m.2.length = some m.2 → m.1 ≤ offset → offset < m.1 + m.2.length →
      m.2[offset - m.1]? = bytes[offset]? := by
    intro m hm hlow hhigh
    unfold slice at hm
    split_ifs at hm
    rw [← Option.some.inj hm, List.getElem?_take, if_pos (by omega), List.getElem?_drop]
    congr 1
    omega
  rw [hbyte left hleft (by omega) (by omega), hbyte right hright (by omega) (by omega)] at hdiffer
  simp at hdiffer

/-- Two instances that no byte string satisfies together, as far as their correlations are distinguished. -/
def Apart (left right : CompiledSimpleInstance) : Prop :=
  (∀ l ∈ left.correlations, ∀ r ∈ right.correlations, correlationsDistinguish l r = true) →
    ∀ bytes, ¬ (left.accepts bytes = true ∧ right.accepts bytes = true)

theorem correlation_of_accepts {compiled : CompiledSimpleInstance} {bytes : List UInt8}
    (hcorrelations : compiled.correlations.map (·.instanceMatches) = compiled.parameters.flatMap planInstances)
    (h : compiled.accepts bytes = true) : ∃ c ∈ compiled.correlations, Carries bytes c.instanceMatches := by
  obtain ⟨p, hp, h⟩ := List.any_eq_true.1 h
  obtain ⟨instances, hinstances, hcarries⟩ := carries_of_accepts h
  have hmem : instances ∈ compiled.correlations.map (·.instanceMatches) := by
    rw [hcorrelations]
    exact List.mem_flatMap.2 ⟨p, hp, hinstances⟩
  obtain ⟨c, hc, rfl⟩ := List.mem_map.1 hmem
  exact ⟨c, hc, hcarries⟩

/-- No byte string answers two instances whose correlations are distinguished. -/
theorem apart {left right : CompiledSimpleInstance}
    (hleft : left.correlations.map (·.instanceMatches) = left.parameters.flatMap planInstances)
    (hright : right.correlations.map (·.instanceMatches) = right.parameters.flatMap planInstances) :
    Apart left right := by
  rintro hdistinguish bytes ⟨haccepts, haccepts'⟩
  obtain ⟨l, hl, hcarries⟩ := correlation_of_accepts hleft haccepts
  obtain ⟨r, hr, hcarries'⟩ := correlation_of_accepts hright haccepts'
  obtain ⟨lm, hlm, h⟩ := List.any_eq_true.1 (hdistinguish l hl r hr)
  obtain ⟨rm, hrm, h⟩ := List.any_eq_true.1 h
  exact apart_of_differ h (hcarries lm hlm) (hcarries' rm hrm)

/-! ### Registration -/

/-- The identity and the timing of one instance in a candidate. -/
structure CandidateInstance where
  instrumentId : InstrumentId
  displayName : String
  resourceId : ResourceId
  pollPeriodMs : ℕ
  queueTimeoutMs : ℕ
  transactionTimeoutMs : ℕ
  historyCapacity : ℕ
  deriving Repr

/-- What the candidate schema admits of them. -/
structure CandidateInstance.Admitted (c : CandidateInstance) : Prop where
  ids : c.instrumentId ≠ 0 ∧ c.resourceId ≠ 0
  name : validateDisplayName c.displayName = .ok ()
  poll : 10 ≤ c.pollPeriodMs ∧ c.pollPeriodMs ≤ 60000
  queue : 1 ≤ c.queueTimeoutMs ∧ c.queueTimeoutMs ≤ 2000
  transaction : 1 ≤ c.transactionTimeoutMs ∧ c.transactionTimeoutMs ≤ 2000
  history : 1 ≤ c.historyCapacity ∧ c.historyCapacity ≤ 1024

/-- `Duration::from_millis`. -/
def fromMillis (ms : ℕ) : ℕ := ms * 10 ^ 6

/-- The registration of a compiled instance: only an output has a queue and a timeout. -/
def CandidateInstance.registration (c : CandidateInstance) (compiled : CompiledSimpleInstance)
    (bindingGeneration mappingRevision : ℕ) : SimpleDeviceInstrumentConfig :=
  let outputCapable := compiled.parameters.any fun p => p.descriptor.role == .actuator
  { id := c.instrumentId
    name := c.displayName
    parameters := compiled.parameters
    binding := {
      resource := c.resourceId
      bindingGeneration := bindingGeneration
      mappingRevision := mappingRevision
      outputQueueTtl := if outputCapable then some (fromMillis c.queueTimeoutMs) else none
      outputTimeout := if outputCapable then some (fromMillis c.transactionTimeoutMs) else none }
    historyCapacity := c.historyCapacity }

theorem validateName_ok {name : String} (h : validateDisplayName name = .ok ()) : validateName name = .ok () := by
  have h := reject_ok.1 h
  simp only [not_or, Bool.not_eq_true, not_lt, gt_iff_lt] at h
  have hlength : name.utf8ByteSize ≤ maxNameBytes := h.2
  unfold validateName
  rw [if_neg (by simp [h.1, hlength])]

/-- A compiled instance has an output where its definition has. -/
theorem emitted_capable {instrument : InstrumentId} {ts : List CompiledParameterTemplate}
    {ps : List SimpleParameterConfig} (h : List.Forall₂ (Emitted instrument) ts ps) :
    (ps.any fun p => p.descriptor.role == .actuator) = ts.any fun t => t.role == .actuator := by
  induction h with
  | nil => rfl
  | cons hp _ ih => rw [List.any_cons, List.any_cons, ih, hp.descriptor]; rfl

section Registration

variable {d : CompiledSimpleDefinition} {c : CandidateInstance} {address channel : UInt16}
  {compiled : CompiledSimpleInstance} {bindingGeneration mappingRevision : ℕ}

/-- Whether Core accepts a registration. -/
def Registers (config : SimpleDeviceInstrumentConfig) : Prop := ∃ i, SimpleDeviceInstrument.new config = .ok i

theorem registers (hd : Definition d.parameters) (hc : c.Admitted) (hgeneration : bindingGeneration ≠ 0)
    (hrevision : mappingRevision ≠ 0) (h : compileSimpleInstance d c.instrumentId address channel = .ok compiled)
    (hunread : ∀ t ∈ d.parameters, Unread t) :
    Registers (c.registration compiled bindingGeneration mappingRevision) := by
  obtain ⟨hemitted, -⟩ := compileInstance_ok hd h
  have hlength := hemitted.length_eq
  have hne : compiled.parameters ≠ [] := List.length_pos_iff.1 (hlength ▸ List.length_pos_iff.2 hd.count.1)
  have hmax : ¬ compiled.parameters.length > maxSimpleParameters := not_lt.2 (hlength ▸ hd.count.2)
  have hcapacity : 1 ≤ c.historyCapacity ∧ c.historyCapacity ≤ maxHistoryCapacity :=
    ⟨hc.history.1, hc.history.2.trans (by decide)⟩
  obtain ⟨b, hloop, -, hcount⟩ := addParameters_ok
    (b := { descriptors := [], plans := .empty, writes := .empty, signals := .empty, actuatorCount := 0 }) hemitted
    (fun t ht => ⟨hd.templates t ht, hunread t ht⟩) hd.distinct (fun _ _ => rfl) hcapacity
    (by rw [Nat.zero_add]; exact hd.actuator)
  rw [Nat.zero_add] at hcount
  have htiming : ¬ (b.actuatorCount = 1 ∧
      ((c.registration compiled bindingGeneration mappingRevision).binding.outputQueueTtl.isNone = true ∨
        (c.registration compiled bindingGeneration mappingRevision).binding.outputTimeout.isNone = true ∨
        (c.registration compiled bindingGeneration mappingRevision).binding.outputQueueTtl = some 0 ∨
        (c.registration compiled bindingGeneration mappingRevision).binding.outputTimeout = some 0)) := by
    rintro ⟨hone, htiming⟩
    have hcapable : (compiled.parameters.any fun p => p.descriptor.role == .actuator) = true := by
      rw [emitted_capable hemitted, List.any_eq_true]
      obtain ⟨t, ht, hrole⟩ := List.countP_pos_iff.1 (show 0 < d.parameters.countP fun t => t.role == .actuator by omega)
      exact ⟨t, ht, hrole⟩
    have hqueue := hc.queue.1
    have htransaction := hc.transaction.1
    simp only [CandidateInstance.registration, hcapable, if_true, Option.isNone_some, Bool.false_eq_true, false_or,
      Option.some.injEq, fromMillis] at htiming
    omega
  refine ⟨{
    descriptor := { id := c.instrumentId, name := c.displayName, parameters := b.descriptors }
    plans := b.plans
    writes := b.writes
    binding := (c.registration compiled bindingGeneration mappingRevision).binding
    signals := b.signals }, ?_⟩
  unfold SimpleDeviceInstrument.new
  rw [if_neg (by
    simp [CandidateInstance.registration, hc.ids.1, hc.ids.2, hgeneration, hrevision, hne, not_lt.1 hmax])]
  refine bind_ok.2 ⟨(), validateName_ok hc.name, bind_ok.2 ⟨b, hloop, ?_⟩⟩
  rw [if_neg htiming]
  rfl

/-- A parameter that has a plan it can never use keeps the whole instance out. -/
theorem unread_of_registers (hd : Definition d.parameters)
    (h : compileSimpleInstance d c.instrumentId address channel = .ok compiled)
    (hregisters : Registers (c.registration compiled bindingGeneration mappingRevision)) :
    ∀ t ∈ d.parameters, Unread t := by
  obtain ⟨hemitted, -⟩ := compileInstance_ok hd h
  obtain ⟨i, hnew⟩ := hregisters
  intro t ht
  by_contra hread
  obtain ⟨k, hk, rfl⟩ := List.mem_iff_getElem.1 ht
  obtain ⟨hlength, hget⟩ := List.forall₂_iff_get.1 hemitted
  have hk' : k < compiled.parameters.length := hlength ▸ hk
  unfold SimpleDeviceInstrument.new at hnew
  rcases ite_eq_iff.1 hnew with ⟨-, hnew⟩ | ⟨-, hnew⟩
  · obtain ⟨_, hnew, -⟩ := bind_ok.1 hnew
    cases hnew
  obtain ⟨_, -, hnew⟩ := bind_ok.1 hnew
  obtain ⟨b, hloop, -⟩ := bind_ok.1 hnew
  obtain ⟨b₁, b₂, hadd⟩ := foldlM_visits hloop _ (List.get_mem compiled.parameters ⟨k, hk'⟩)
  exact addParameter_refuses (hd.templates _ ht) (hget k hk hk') hread b₂ hadd

/-! ### The contract -/

/-- The plans of one parameter stay inside every answer, and its requests have one bounded length. -/
structure PlansSafe (p : SimpleParameterConfig) : Prop where
  read : ∀ read ∈ p.read, ∀ bytes, read.response.examine bytes = some (read.response.decodeScalar bytes)
  ack : ∀ write ∈ p.write, ∀ bytes, write.ack.examine bytes = some (write.ack.accepts bytes)
  readback : ∀ write ∈ p.write, ∀ readback ∈ write.readback, ∀ bytes,
    readback.response.examine bytes = some (readback.response.decodeScalar bytes)
  request : ∀ write ∈ p.write, ∃ length, 1 ≤ length ∧ length ≤ maxTransactionBytes ∧ write.Encodes length

theorem plansSafe {instrument : InstrumentId} {t : CompiledParameterTemplate} {p : SimpleParameterConfig}
    (hp : Emitted instrument t p) : PlansSafe p := by
  have hwrite : ∀ write ∈ p.write, write.validate = .ok () := by
    intro write hw
    rcases hp.write with ⟨-, hnone⟩ | ⟨plan, -, hsome, hvalid, -⟩
    · rw [hnone] at hw; cases hw
    · obtain rfl : plan = write := Option.some.inj (hsome.symm.trans hw)
      exact hvalid
  refine ⟨?_, ?_, ?_, ?_⟩
  · intro read hr bytes
    rcases hp.read with ⟨-, hnone⟩ | ⟨plan, -, hsome, hplan⟩
    · rw [hnone] at hr; cases hr
    · obtain rfl : plan = read := Option.some.inj (hsome.symm.trans hr)
      exact SimpleResponsePlan.examine_eq hplan.response bytes
  · intro write hw bytes
    exact SimpleAckPlan.examine_eq (SimpleWritePlan.parts (hwrite write hw)).1 bytes
  · intro write hw readback hreadback bytes
    exact SimpleResponsePlan.examine_eq ((SimpleWritePlan.parts (hwrite write hw)).2 readback hreadback) bytes
  · intro write hw
    exact SimpleWritePlan.encodes (hwrite write hw)

/-- What an accepted instance is owed: Core registers it, its plans are safe, and no other accepted
instance whose correlations are distinguished shares an answer with it. -/
structure Conforms (serde : Serializer) (config : SimpleDeviceInstrumentConfig) (compiled : CompiledSimpleInstance) :
    Prop where
  registers : Registers config
  plans : ∀ p ∈ compiled.parameters, PlansSafe p
  apart : ∀ bytes d instrument address channel other, parseSimpleDefinition serde bytes = .ok d →
    compileSimpleInstance d instrument address channel = .ok other → Apart compiled other

/-- The compiler and Core agree on an accepted definition exactly when none of its parameters that
may only be written has a plan to read it. -/
theorem compiler_agrees {serde : Serializer} {bytes : ByteArray} (hparse : parseSimpleDefinition serde bytes = .ok d)
    (hc : c.Admitted) (hgeneration : bindingGeneration ≠ 0) (hrevision : mappingRevision ≠ 0)
    (hcompile : compileSimpleInstance d c.instrumentId address channel = .ok compiled) :
    Conforms serde (c.registration compiled bindingGeneration mappingRevision) compiled ↔
      ∀ t ∈ d.parameters, t.access = .writeOnly → t.read = none := by
  have hd := parse_ok hparse
  obtain ⟨hemitted, hcorrelations⟩ := compileInstance_ok hd hcompile
  constructor
  · intro h
    exact unread_of_registers hd hcompile h.registers
  · intro hunread
    refine ⟨registers hd hc hgeneration hrevision hcompile hunread, ?_, ?_⟩
    · intro p hp
      obtain ⟨k, hk, rfl⟩ := List.mem_iff_getElem.1 hp
      obtain ⟨hlength, hget⟩ := List.forall₂_iff_get.1 hemitted
      exact plansSafe (hget k (hlength ▸ hk) hk)
    · intro bytes' d' instrument' address' channel' other hparse' hcompile'
      exact apart hcorrelations (compileInstance_ok (parse_ok hparse') hcompile').2

end Registration

/-! ### A heater that is read as well as written -/

/-- The heater's definition in its canonical spelling, with the access it declares. -/
def heaterText (access : String) : String :=
  "\x7b\"format_version\":1,\"definition_id\":\"heater\",\"definition_version\":1,\"parameters\":[" ++
  "\x7b\"parameter_id\":2,\"key\":\"heater\",\"display_name\":\"Heater\",\"role\":\"actuator\",\"ac" ++
  "cess\":\"" ++
  access ++
  "\",\"unit_id\":\"percent\",\"unit_symbol\":\"%\",\"value_type\":\"float\",\"engineering_min\":0." ++
  "0,\"engineering_max\":100.0,\"write_effect\":\"output_affecting\",\"encoding\":\x7b\"raw\":\"u16" ++
  "_be\",\"scale\":1.0,\"offset\":0.0\x7d,\"read\":\x7b\"request\":\x7b\"segments\":[\x7b\"type\":" ++
  "\"literal\",\"hex\":\"22\"\x7d]\x7d,\"response\":\x7b\"exact_length\":3,\"matches\":[\x7b\"type" ++
  "\":\"literal_match\",\"offset\":0,\"hex\":\"22\"\x7d],\"extract\":\x7b\"type\":\"scalar_extract" ++
  "\",\"offset\":1\x7d\x7d\x7d,\"write\":\x7b\"request\":\x7b\"segments\":[\x7b\"type\":\"literal\"" ++
  ",\"hex\":\"20\"\x7d,\x7b\"type\":\"instance_field\",\"field\":\"address\",\"encoding\":\"u8\"" ++
  "\x7d,\x7b\"type\":\"value_field\"\x7d]\x7d,\"ack\":\x7b\"exact_length\":2,\"matches\":[\x7b\"typ" ++
  "e\":\"literal_match\",\"offset\":0,\"hex\":\"20\"\x7d,\x7b\"type\":\"instance_match\",\"offset\"" ++
  ":1,\"field\":\"address\",\"encoding\":\"u8\"\x7d]\x7d\x7d\x7d]\x7d"

/-- What the serializer reads from that text. -/
def heater (access : AccessDto) : DefinitionDto :=
  { formatVersion := 1
    definitionId := "heater"
    definitionVersion := 1
    parameters := [{
      parameterId := 2
      key := "heater"
      displayName := "Heater"
      role := .actuator
      access := access
      unitId := "percent"
      unitSymbol := "%"
      valueType := .float
      engineeringMin := .float F64.zero
      engineeringMax := .float (F64.ofInt 100)
      writeEffect := .outputAffecting
      encoding := { raw := .u16Be, scale := F64.ofInt 1, offset := F64.zero }
      read := some {
        request := { segments := [.literal "22"] }
        response := {
          exactLength := 3
          «matches» := [.literalMatch 0 "22"]
          extract := some { offset := 1 }
          checksum := none } }
      write := some {
        request := { segments := [.literal "20", .instanceField .address .u8, .valueField] }
        ack := {
          exactLength := 2
          «matches» := [.literalMatch 0 "20", .instanceMatch 1 .address .u8]
          extract := none
          checksum := none }
        readback := none } }] }

def heaterSerializer (text : String) (access : AccessDto) : Serializer :=
  { fromStr := fun source => if source = text then .ok (heater access) else .error "unexpected text"
    toVec := fun dto => if dto = heater access then some (utf8 text) else none }

/-- One heater at address 1 of resource 7. -/
def heaterInstance : CandidateInstance :=
  { instrumentId := 2001
    displayName := "Heater"
    resourceId := 7
    pollPeriodMs := 100
    queueTimeoutMs := 50
    transactionTimeoutMs := 50
    historyCapacity := 8 }

theorem heaterInstance_admitted : heaterInstance.Admitted :=
  ⟨by decide, by decide +kernel, by decide, by decide, by decide, by decide⟩

theorem fromUTF8_toUTF8 (text : String) : String.fromUTF8? text.toUTF8 = some text := by
  unfold String.fromUTF8?
  exact dif_pos text.isValidUTF8

/-- The heater's text is read as the heater. -/
theorem parse_heater {text : String} {access : AccessDto} (hsize : text.toUTF8.size ≤ maxSimpleDefinitionBytes) :
    parseSimpleDefinition (heaterSerializer text access) text.toUTF8 =
      compileDefinitionDto (heaterSerializer text access) (heater access) := by
  unfold parseSimpleDefinition
  rw [reject_pass (not_lt.2 hsize), ok_bind, fromUTF8_toUTF8]
  simp only [heaterSerializer, if_true]

/-- What a heater is compiled to, and whether Core registers it. -/
def heaterOutcome (text : String) (access : AccessDto) : Compiled (CompiledSimpleDefinition × CompiledSimpleInstance) := do
  let definition ← compileDefinitionDto (heaterSerializer text access) (heater access)
  let compiled ← compileSimpleInstance definition heaterInstance.instrumentId 1 2
  return (definition, compiled)

def registersHeater (compiled : CompiledSimpleInstance) : Bool :=
  match SimpleDeviceInstrument.new (heaterInstance.registration compiled 1 1) with
  | .ok _ => true
  | .error _ => false

/-- A heater that is compiled, split into its definition and its instance. -/
theorem heaterOutcome_ok (text : String) (access : AccessDto) (property : CompiledSimpleInstance → Bool) (b : Bool)
    (hsize : text.toUTF8.size ≤ maxSimpleDefinitionBytes)
    (h : (heaterOutcome text access).map (fun outcome => property outcome.2) = .ok b) :
    ∃ d compiled, parseSimpleDefinition (heaterSerializer text access) text.toUTF8 = .ok d ∧
      compileSimpleInstance d heaterInstance.instrumentId 1 2 = .ok compiled ∧ property compiled = b := by
  cases houtcome : heaterOutcome text access with
  | error halt => rw [houtcome] at h; cases h
  | ok outcome =>
    rw [houtcome] at h
    obtain ⟨d, hd, houtcome⟩ := bind_ok.1 houtcome
    obtain ⟨compiled, hcompiled, houtcome⟩ := bind_ok.1 houtcome
    obtain rfl := pure_ok.1 houtcome
    exact ⟨d, compiled, (parse_heater hsize).trans hd, hcompiled, Except.ok.inj h⟩

/-- Core keeps out a heater that the compiler has accepted: it may only be written, and is read. -/
theorem written_heater_refused : ∃ d compiled,
    parseSimpleDefinition (heaterSerializer (heaterText "write_only") .writeOnly) (heaterText "write_only").toUTF8 =
        .ok d ∧
      compileSimpleInstance d heaterInstance.instrumentId 1 2 = .ok compiled ∧ heaterInstance.Admitted ∧
      ¬ Registers (heaterInstance.registration compiled 1 1) := by
  obtain ⟨d, compiled, hparse, hcompile, hrefused⟩ := heaterOutcome_ok (heaterText "write_only") .writeOnly
    registersHeater false (by decide +kernel) (by decide +kernel)
  refine ⟨d, compiled, hparse, hcompile, heaterInstance_admitted, ?_⟩
  rintro ⟨i, hi⟩
  unfold registersHeater at hrefused
  rw [hi] at hrefused
  cases hrefused

/-- A heater that may also be read conforms. -/
theorem compiler_agrees_heater : ∃ d compiled,
    parseSimpleDefinition (heaterSerializer (heaterText "read_write") .readWrite) (heaterText "read_write").toUTF8 =
        .ok d ∧
      compileSimpleInstance d heaterInstance.instrumentId 1 2 = .ok compiled ∧
      (Conforms (heaterSerializer (heaterText "read_write") .readWrite) (heaterInstance.registration compiled 1 1)
          compiled ↔ ∀ t ∈ d.parameters, t.access = .writeOnly → t.read = none) := by
  obtain ⟨d, compiled, hparse, hcompile, -⟩ := heaterOutcome_ok (heaterText "read_write") .readWrite
    registersHeater true (by decide +kernel) (by decide +kernel)
  exact ⟨d, compiled, hparse, hcompile,
    compiler_agrees hparse heaterInstance_admitted (by decide) (by decide) hcompile⟩

end LabRuntime.Simple
