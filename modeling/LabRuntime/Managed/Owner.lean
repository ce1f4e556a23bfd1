import LabRuntime.Managed.Component
import LabRuntime.Native.Instruments
import LabRuntime.Reference
import LabRuntime.Runtime.Machine

/-! The owner's side of managed components: staging and replacement, invocations, completions, expiry, and
the failure of a branch. Workers are reached through the executor port alone. -/

namespace LabRuntime

/-! ### State -/

/-- A committed component with the signal it publishes. -/
structure PublishedComponent extends ManagedInstance F64 where
  descriptor : InstrumentDescriptor
  signal : SignalBuffer

structure StagedComponent where
  definition : ComponentDefinition F64
  replaces : Option ComponentId
  correlation : Correlation
  prepareOnly : Bool

structure PreparedComponent where
  staged : StagedComponent
  result : ComponentResult F64

/-- A measurement fact of a managed signal. -/
structure ManagedFact where
  sample : Sample
  generation : ℕ
  stateRevision : ℕ
  lineage : Option (CapturedInput F64)

/-- A step that was committed: the answer's identity, what it was committed with, and the state it left. -/
structure CommittedStep where
  correlation : Correlation
  definition : ComponentDefinition F64
  state : PlainData F64
  input : Option (CapturedInput F64)
  sourceTime : ℕ
  time : ℕ
  value : Option F64
  result : PlainData F64

/-- The owner with its native models, references and managed components. The last three are traces of the outside:
what was submitted to the workers, the steps that were committed, and the facts that were captured. -/
structure ManagedRuntime (σ ε : Type) where
  runtime : Runtime σ
  settings : OrderedMap InstrumentId VirtualInstrument.Settings
  models : OrderedMap InstrumentId PlantModel
  references : OrderedMap ReferenceId RuntimeReference
  managed : OrderedMap ComponentId PublishedComponent
  staged : Option StagedComponent
  prepared : OrderedMap ComponentId PreparedComponent
  executor : Option ε
  componentRuntime : ℕ
  managedQuiesced : Bool
  submitted : List (Invocation F64)
  committed : List CommittedStep
  facts : List ManagedFact

/-- How a command on managed components ends without its result. -/
inductive ManagedAbort
  | core (abort : Abort)
  | component (error : ComponentError)
  deriving DecidableEq, Repr

abbrev ManagedStep (σ ε : Type) := Procedure (ManagedRuntime σ ε) ManagedAbort

/-- `Sample::derived_good`: a finite reading with the time of its source. -/
def Sample.derivedGood (signal : SignalId) (unit : EngineeringUnit) (now freshnessTime : ℕ) (value : F64) :
    Except Error Sample :=
  if now < freshnessTime then .error (.invalidConfiguration "derived freshness is after publication")
  else if value.isFinite = false then .error .nonFinite
  else .ok { signal := signal, unit := unit, time := now, freshnessTime := freshnessTime, reading := .good (.float value) }

namespace PublishedComponent

def signalId (c : PublishedComponent) : SignalId := c.definition.manifest.signal

/-- Whether a component is a transform of a signal. -/
def reads (c : PublishedComponent) (signal : SignalId) : Bool := decide (c.definition.manifest.kind = .transform signal)

/-- The component as the rest of the owner sees it. -/
def native (c : PublishedComponent) : NativeInstrument :=
  { descriptor := c.descriptor, signals := OrderedMap.empty.insert c.signalId c.signal }

/-- The signal after a failure: its latest sample invalidated, or a first one pushed; as it was where that is refused. -/
def failedSignal (c : PublishedComponent) (now : ℕ) : SignalBuffer :=
  match c.signal.latest with
  | some _ => (c.signal.invalidate now .componentFailure).2
  | none =>
    match c.signal.push (.unavailable c.signalId c.definition.manifest.unit now .componentFailure) with
    | .ok signal => signal
    | .error _ => c.signal

/-- The component with its failure latched and its signal unavailable. -/
def failing (c : PublishedComponent) (now : ℕ) : PublishedComponent :=
  { c with toManagedInstance := c.fail, signal := c.failedSignal now }

/-- The fact of the latest sample. -/
def factOf (c : PublishedComponent) (sample : Sample) (lineage : Option (CapturedInput F64)) : ManagedFact :=
  { sample := sample, generation := c.generation, stateRevision := c.revision, lineage := lineage }

end PublishedComponent

namespace ManagedRuntime

variable {σ ε : Type}

def empty (σ ε : Type) : ManagedRuntime σ ε :=
  { runtime := .empty σ, settings := .empty, models := .empty, references := .empty, managed := .empty, staged := none
    prepared := .empty, executor := none, componentRuntime := 0, managedQuiesced := false, submitted := [], committed := []
    facts := [] }

/-! ### Parts -/

def refuse {α : Type} (error : ComponentError) : ManagedStep σ ε α := Procedure.stop (.component error)

/-- A call on the rest of the owner. -/
def core {α : Type} (x : Step σ α) : ManagedStep σ ε α := fun s =>
  ((x.run s.runtime).1.mapError .core, { s with runtime := (x.run s.runtime).2 })

/-- Store the components; the rest of the owner sees their descriptors and signals. -/
def withManaged (s : ManagedRuntime σ ε) (managed : OrderedMap ComponentId PublishedComponent) : ManagedRuntime σ ε :=
  { s with managed := managed, runtime := { s.runtime with managed := managed.values.map PublishedComponent.native } }

def store (id : ComponentId) (c : PublishedComponent) : ManagedStep σ ε PUnit :=
  modify fun s => s.withManaged (s.managed.insert id c)

/-- Capture a fact of a managed signal. -/
def capture (fact : ManagedFact) : ManagedStep σ ε PUnit :=
  modify fun s => { s with
    facts := s.facts ++ [fact]
    runtime := { s.runtime with recordingFacts := s.runtime.recordingFacts.measurement fact.sample fact.generation 1 } }

/-- The components, other than `id`, that are transforms of a signal. -/
def dependents (s : ManagedRuntime σ ε) (id : ComponentId) (signal : SignalId) : List ComponentId :=
  (s.managed.entries.filter fun entry => decide (entry.1 ≠ id) && entry.2.reads signal).map Prod.fst

/-- The signals of components. -/
def signalsOf (s : ManagedRuntime σ ε) (ids : List ComponentId) : List SignalId :=
  ids.filterMap fun id => (s.managed.get id).map PublishedComponent.signalId

/-- The controllers that prepare or run on one of these signals. -/
def readers (s : ManagedRuntime σ ε) (signals : List SignalId) : List ControllerId :=
  (s.runtime.controllers.entries.filter fun entry => signals.contains entry.2.config.input && entry.2.state.live).map Prod.fst

/-! ### The executor port -/

section Port

variable (A : ComponentExecutor F64 ε)

def trySubmit (job : Invocation F64) : ManagedStep σ ε Unit := do
  match (← get).executor with
  | none => refuse .executor
  | some executor =>
    modify fun s => { s with executor := some (A.trySubmit job executor).2 }
    match (A.trySubmit job executor).1 with
    | .error error => refuse error
    | .ok _ => modify fun s => { s with submitted := s.submitted ++ [job] }

def cancel (correlation : Correlation) : ManagedStep σ ε PUnit :=
  modify fun s => { s with executor := s.executor.map (A.tryCancel correlation) }

def cancelPending (pending : Option Correlation) : ManagedStep σ ε PUnit :=
  match pending with
  | none => pure ⟨⟩
  | some correlation => cancel A correlation

def tryExpire (correlation : Correlation) : ManagedStep σ ε Bool := do
  match (← get).executor with
  | none => return false
  | some executor =>
    modify fun s => { s with executor := some (A.tryExpire correlation executor).2 }
    return (A.tryExpire correlation executor).1

def tryPoll : ManagedStep σ ε (Option (ComponentCompletion F64)) := do
  match (← get).executor with
  | none => return none
  | some executor =>
    modify fun s => { s with executor := some (A.tryPoll executor).2 }
    return (A.tryPoll executor).1

end Port

/-! ### Staging -/

/-- What of a manifest a replacement keeps. -/
def retains (previous manifest : ComponentManifest F64) : Bool :=
  decide (previous.instrument = manifest.instrument) && decide (previous.parameter = manifest.parameter) &&
    decide (previous.kind = manifest.kind) && previous.unit == manifest.unit && previous.min == manifest.min &&
    previous.max == manifest.max && previous.name == manifest.name &&
    decide (previous.warmupSamples = manifest.warmupSamples) && decide (previous.maxInputAge = manifest.maxInputAge) &&
    decide (previous.historyCapacity = manifest.historyCapacity)

def rejected (error : Error) : ManagedAbort := .core (.rejected error)

def checkManifest (definition : ComponentDefinition F64) : Except ManagedAbort Unit := do
  let manifest := definition.manifest
  (validateName manifest.name).mapError rejected
  definition.config.validate.mapError .component
  Checks.reject (manifest.schemaVersion ≠ 1 ∨ manifest.min.isFinite = false ∨ manifest.max.isFinite = false ∨
      manifest.max ≤ manifest.min ∨ ¬ (1 ≤ manifest.warmupSamples ∧ manifest.warmupSamples ≤ 64) ∨ manifest.maxInputAge = 0)
    (.component .invalidConfiguration)
  let _ ← (SignalBuffer.new manifest.signal manifest.historyCapacity).mapError rejected
  return ()

/-- A new component has an identity and an instrument of its own; a replacement keeps both, and its manifest. -/
def checkIdentity (s : ManagedRuntime σ ε) (manifest : ComponentManifest F64) (replaces : Option ComponentId) :
    Except ManagedAbort Unit :=
  match replaces with
  | none =>
    Checks.reject (s.managed.contains manifest.id = true ∨ s.runtime.containsInstrument manifest.instrument = true ∨
        maxComponents ≤ s.managed.size ∨ maxInstruments ≤ s.runtime.instrumentCount)
      (.component .invalidConfiguration)
  | some id =>
    match s.managed.get id with
    | none => .error (.component .unknown)
    | some old => do
      Checks.reject (id ≠ manifest.id ∨ retains old.definition.manifest manifest = false) (.component .invalidConfiguration)
      Checks.reject (u64Max < old.generation + 1) (.component .identityExhausted)

/-- The parameter behind a signal, as an instrument that is no transform describes it. -/
def checkInput (s : ManagedRuntime σ ε) (manifest : ComponentManifest F64) (input : SignalId) : Except ManagedAbort Unit := do
  Checks.reject (input.instrument = manifest.instrument) (.component .invalidConfiguration)
  Checks.reject ((s.managed.values.any fun c =>
      c.definition.manifest.instrument = input.instrument ∧ c.definition.manifest.kind ≠ .source) = true)
    (.component .invalidConfiguration)
  match s.runtime.descriptor input.instrument with
  | none => .error (rejected (.unknownInstrument input.instrument))
  | some descriptor =>
    match descriptor.parameter input.parameter with
    | none => .error (.component .invalidConfiguration)
    | some parameter =>
      Checks.reject (parameter.signal ≠ some input ∨ parameter.role ≠ .measurement ∨
          parameter.valueSpec.valueType ≠ .float ∨ (parameter.unit == manifest.unit) = false)
        (.component .invalidConfiguration)

def validateComponentDefinition (s : ManagedRuntime σ ε) (definition : ComponentDefinition F64) (replaces : Option ComponentId) :
    Except ManagedAbort Unit := do
  checkManifest definition
  s.checkIdentity definition.manifest replaces
  match definition.manifest.kind with
  | .source => .ok ()
  | .transform input => s.checkInput definition.manifest input

/-- The generation and revision that an initialisation is for. -/
def nextIdentity (s : ManagedRuntime σ ε) (replaces : Option ComponentId) : Except ManagedAbort (ℕ × ℕ) :=
  match replaces with
  | none => .ok (1, 0)
  | some id =>
    match s.managed.get id with
    | none => .error (.core .panicked)
    | some old =>
      match checkedAdd old.generation 1 with
      | none => .error (.component .identityExhausted)
      | some generation => .ok (generation, old.revision)

/-- Whether a new staging has to wait: one at a time, and one prepared replacement a component. -/
def stagingBusy (s : ManagedRuntime σ ε) (id : ComponentId) (prepareOnly : Bool) : Bool :=
  s.staged.isSome || (prepareOnly && (decide (maxComponents ≤ s.prepared.size) || s.prepared.contains id))

def stageComponent (A : ComponentExecutor F64 ε) (definition : ComponentDefinition F64) (replaces : Option ComponentId)
    (now : ℕ) (prepareOnly : Bool) : ManagedStep σ ε ComponentId := do
  let s ← get
  if s.managedQuiesced then refuse .executor
  if s.stagingBusy definition.manifest.id prepareOnly then refuse .busy
  Procedure.lift (s.validateComponentDefinition definition replaces)
  core (Runtime.checkOutputTime now)
  let (generation, revision) ← Procedure.lift ((← get).nextIdentity replaces)
  let correlation : Correlation :=
    { runtime := s.componentRuntime, component := definition.manifest.id, generation := generation, attempt := 0
      revision := revision }
  trySubmit A (ManagedInstance.stagingJob definition correlation now)
  modify fun s => { s with staged := some ⟨definition, replaces, correlation, prepareOnly⟩ }
  return definition.manifest.id

/-! ### Replacement -/

def managedDescriptor (manifest : ComponentManifest F64) : Except Error InstrumentDescriptor := do
  let parameter : ParameterDescriptor :=
    { id := manifest.parameter
      name := "value"
      valueSpec := .float manifest.min manifest.max
      unit := manifest.unit
      access := .readOnly
      role := .measurement
      writeEffect := .none
      signal := some manifest.signal }
  parameter.validateDefinition
  return { id := manifest.instrument, name := manifest.name, parameters := [parameter] }

/-- A signal that was attempted after a time. -/
def attemptedAfter (c : PublishedComponent) (now : ℕ) : Bool := c.signal.latest.any fun sample => decide (now < sample.time)

/-- The checks on what a replacement replaces, with its dependents. -/
def checkReplaced (s : ManagedRuntime σ ε) (staged : StagedComponent) (id : ComponentId) (now : ℕ) :
    Except ManagedAbort PublishedComponent :=
  match s.managed.get id with
  | none => .error (.component .unknown)
  | some old => do
    Checks.reject (checkedAdd old.generation 1 ≠ some staged.correlation.generation ∨
        old.revision ≠ staged.correlation.revision ∨ attemptedAfter old now = true)
      (.component .invalidResult)
    Checks.reject ((s.dependents id old.signalId).any (fun other =>
        (s.managed.get other).any fun c => attemptedAfter c now) = true)
      (.component .invalidResult)
    return old

/-- A dependent of a replaced component fails; the fact of its invalidated sample waits for the replacement. -/
def failReplacedDependent (A : ComponentExecutor F64 ε) (now : ℕ) (id : ComponentId) : ManagedStep σ ε (List ManagedFact) := do
  match (← get).managed.get id with
  | none => return []
  | some c =>
    cancelPending A c.pending
    match c.signal.latest with
    | none =>
      store id { c with toManagedInstance := c.fail }
      return []
    | some _ =>
      store id { c with toManagedInstance := c.fail, signal := (c.signal.invalidate now .componentFailure).2 }
      Procedure.lift ((c.signal.invalidate now .componentFailure).1.mapError rejected)
      return ((c.signal.invalidate now .componentFailure).2.latest.map fun sample => c.factOf sample none).toList

def failReplacedDependents (A : ComponentExecutor F64 ε) (now : ℕ) : List ComponentId → ManagedStep σ ε (List ManagedFact)
  | [] => return []
  | id :: ids => do
    let facts ← failReplacedDependent A now id
    let more ← failReplacedDependents A now ids
    return facts ++ more

/-- Stop what reads a component that is to be replaced. -/
def quiesceDependents (A : ComponentExecutor F64 ε) (staged : StagedComponent) (id : ComponentId) (now : ℕ) :
    ManagedStep σ ε (List ManagedFact) := do
  let s ← get
  let old ← Procedure.lift (s.checkReplaced staged id now)
  let dependents := s.dependents id old.signalId
  Procedure.forEach (s.readers (old.signalId :: s.signalsOf dependents)) fun controller =>
    core (Runtime.pauseController controller now)
  cancelPending A old.pending
  failReplacedDependents A now dependents

/-- The window of a new component, or the retained one with its latest sample invalidated. -/
def retainedSignal (replaces : Option ComponentId) (manifest : ComponentManifest F64) (now : ℕ) :
    ManagedStep σ ε (SignalBuffer × Option Sample) := do
  match replaces with
  | none =>
    let signal ← Procedure.lift ((SignalBuffer.new manifest.signal manifest.historyCapacity).mapError rejected)
    return (signal, none)
  | some id =>
    match (← get).managed.get id with
    | none => refuse .unknown
    | some old =>
      modify fun s => s.withManaged (s.managed.remove id)
      match old.signal.latest with
      | none => return (old.signal, none)
      | some _ =>
        Procedure.lift ((old.signal.invalidate now .componentFailure).1.mapError rejected)
        let signal := (old.signal.invalidate now .componentFailure).2
        return (signal, signal.latest)

/-- What `commit_staged` does before and while it replaces, with the facts that it captures afterwards. -/
def commitStaged (A : ComponentExecutor F64 ε) (staged : StagedComponent) (result : ComponentResult F64) (now : ℕ) :
    ManagedStep σ ε Unit := do
  let manifest := staged.definition.manifest
  Procedure.lift ((ManagedInstance.validateManagedResult result manifest .init).mapError ManagedAbort.component)
  let invalidated ← match staged.replaces with
    | none => pure []
    | some id => quiesceDependents A staged id now
  let descriptor ← Procedure.lift ((managedDescriptor manifest).mapError rejected)
  let (signal, replacementFailure) ← retainedSignal staged.replaces manifest now
  store manifest.id
    { toManagedInstance := .committing staged.definition staged.correlation.generation result
      descriptor := descriptor
      signal := signal }
  Procedure.forEach (invalidated ++ (replacementFailure.map fun sample =>
      (⟨sample, staged.correlation.generation, 0, none⟩ : ManagedFact)).toList) capture

/-! ### Failure -/

/-- One component fails: its job is cancelled and its signal unavailable. -/
def failOne (A : ComponentExecutor F64 ε) (now : ℕ) (id : ComponentId) : ManagedStep σ ε Unit := do
  match (← get).managed.get id with
  | none => pure ()
  | some c =>
    cancelPending A c.pending
    store id (c.failing now)
    match (c.failing now).signal.latest with
    | some sample => if sample.time = now then capture (c.factOf sample none)
    | none => pure ()

/-- A component fails with its transforms, and so do the controllers that read one of them. -/
def failComponent (A : ComponentExecutor F64 ε) (id : ComponentId) (now : ℕ) : ManagedStep σ ε Unit := do
  match (← get).managed.get id with
  | none => pure ()
  | some c =>
    failOne A now id
    let dependents := (← get).dependents id c.signalId
    Procedure.forEach dependents (failOne A now)
    let s ← get
    Procedure.forEach (s.readers (c.signalId :: s.signalsOf dependents)) fun controller =>
      core (Runtime.failDependent controller now)

/-! ### Invocation -/

/-- The producer of a signal, as its own facts name it: generation, revision, state revision. -/
def sourceIdentity (s : ManagedRuntime σ ε) (input : SignalId) : ℕ × ℕ × Option ℕ :=
  match s.managed.values.find? fun c => decide (c.signalId = input) with
  | some c => (c.generation, 1, some c.revision)
  | none =>
    match s.runtime.metakonInstruments.get input.instrument with
    | some i => (i.binding.bindingGeneration, i.binding.mappingRevision, none)
    | none => (1, 1, none)

/-- A fresh, Good and finite reading in the unit of the component. -/
def usableInput (manifest : ComponentManifest F64) (now : ℕ) (sample : Sample) : Option F64 :=
  if sample.quality ≠ .good ∨ (sample.unit == manifest.unit) = false ∨ now < sample.freshnessTime ∨
      manifest.maxInputAge ≤ now - sample.freshnessTime then none
  else match sample.value with
    | some (.float value) => if value.isFinite then some value else none
    | _ => none

def captureComponentInput (s : ManagedRuntime σ ε) (manifest : ComponentManifest F64) (now : ℕ) :
    Except ComponentError (Option (CapturedInput F64)) :=
  match manifest.kind with
  | .source => .ok none
  | .transform input =>
    match (s.runtime.signal input).bind SignalBuffer.latest with
    | none => .error .inputUnavailable
    | some sample =>
      match usableInput manifest now sample with
      | none => .error .inputUnavailable
      | some value =>
        let identity := s.sourceIdentity input
        .ok (some
          { signal := input
            value := value
            unit := sample.unit
            time := sample.time
            freshnessTime := sample.freshnessTime
            sourceGeneration := identity.1
            sourceRevision := identity.2.1
            sourceStateRevision := identity.2.2 })

/-- Submit the next job of a component that awaits none. -/
def invokeWith (A : ComponentExecutor F64 ε) (id : ComponentId) (c : PublishedComponent) (input : Option (CapturedInput F64))
    (now : ℕ) : ManagedStep σ ε Correlation := do
  let job ← Procedure.lift ((c.nextJob (← get).componentRuntime now input).mapError ManagedAbort.component)
  trySubmit A job
  store id { c with toManagedInstance := c.awaiting job }
  return job.correlation

def invokeComponent (A : ComponentExecutor F64 ε) (id : ComponentId) (now : ℕ) : ManagedStep σ ε Correlation := do
  core (Runtime.checkOutputTime now)
  let s ← get
  if s.managedQuiesced then refuse .executor
  match s.managed.get id with
  | none => refuse .unknown
  | some c =>
    if c.state = .failed then refuse .invalidResult
    else if c.pending.isSome then refuse .busy
    else match s.captureComponentInput c.definition.manifest now with
      | .error error => do
        failComponent A id now
        refuse error
      | .ok input => invokeWith A id c input now

/-! ### Completion -/

/-- The sample that a committed step publishes. -/
def steppedSample (manifest : ComponentManifest F64) (now sourceTime : ℕ) (value : Option F64) : Except Error Sample :=
  match value with
  | some value => Sample.derivedGood manifest.signal manifest.unit now sourceTime value
  | none => .ok (.unavailable manifest.signal manifest.unit now .processingWarmup)

/-- The component and its sample after an accepted answer, unless the sample is refused. -/
def publishStep (c : PublishedComponent) (next : ManagedInstance F64) (now sourceTime : ℕ) (value : Option F64) :
    Except Error (PublishedComponent × Sample) := do
  let sample ← steppedSample c.definition.manifest now sourceTime value
  let signal ← c.signal.push sample
  return ({ c with toManagedInstance := next, signal := signal }, sample)

def commitStep (A : ComponentExecutor F64 ε) (completion : ComponentCompletion F64) (now : ℕ) : ManagedStep σ ε Unit := do
  let s ← get
  let id := completion.correlation.component
  match s.managed.get id with
  | none => pure ()
  | some c =>
    match c.decideStep s.componentRuntime completion now fun input => (s.runtime.signal input.signal).bind SignalBuffer.latest with
    | .ignored => pure ()
    | .failed => failComponent A id now
    | .committed value sourceTime next =>
      match publishStep c next now sourceTime value with
      | .error _ => failComponent A id now
      | .ok (published, sample) =>
        store id published
        modify fun s => { s with committed := s.committed ++
          [⟨completion.correlation, c.definition, c.committed, c.pendingInput, sourceTime, now, value, published.committed⟩] }
        capture (published.factOf sample c.pendingInput)

/-- Go on after any rejection. -/
def ignoring (x : ManagedStep σ ε Unit) : ManagedStep σ ε Unit := fun s =>
  match x.run s with
  | (.error (.core .panicked), s) => (.error (.core .panicked), s)
  | (_, s) => (.ok (), s)

/-- The answer to the staged initialisation: retained, or committed at once. -/
def completeStaged (A : ComponentExecutor F64 ε) (staged : StagedComponent) (completion : ComponentCompletion F64) (now : ℕ) :
    ManagedStep σ ε Unit := do
  modify fun s => { s with staged := none }
  match completion.timely, completion.outcome with
  | true, .ok result =>
    if staged.prepareOnly then
      if ManagedInstance.validateManagedResult result staged.definition.manifest .init = .ok () then
        modify fun s => { s with prepared := s.prepared.insert staged.definition.manifest.id ⟨staged, result⟩ }
      else pure ()
    else ignoring (commitStaged A staged result now)
  | _, _ => pure ()

def complete (A : ComponentExecutor F64 ε) (now : ℕ) (completion : ComponentCompletion F64) : ManagedStep σ ε Unit := do
  match (← get).staged.filter fun staged => decide (staged.correlation = completion.correlation) with
  | some staged => completeStaged A staged completion now
  | none => commitStep A completion now

/-- Take this many completions, as far as there are any. -/
def drain (A : ComponentExecutor F64 ε) (now : ℕ) : ℕ → ManagedStep σ ε Unit
  | 0 => pure ()
  | n + 1 => do
    match ← tryPoll A with
    | none => pure ()
    | some completion => do
      complete A now completion
      drain A now n

def expireStaged (A : ComponentExecutor F64 ε) : ManagedStep σ ε Unit := do
  match (← get).staged with
  | none => pure ()
  | some staged =>
    if ← tryExpire A staged.correlation then
      modify fun s => { s with staged := none }
      cancel A staged.correlation

/-- The components among these whose job is over its deadline. -/
def expired (A : ComponentExecutor F64 ε) : List (ComponentId × PublishedComponent) → ManagedStep σ ε (List ComponentId)
  | [] => return []
  | (id, c) :: rest => do
    let late ← match c.pending with
      | none => pure false
      | some correlation => tryExpire A correlation
    let others ← expired A rest
    return if late then id :: others else others

def pollComponents (T : ByteTransport σ) (A : ComponentExecutor F64 ε) (now : ℕ) : ManagedStep σ ε Unit := do
  core (Runtime.serviceSafety T now)
  expireStaged A
  let late ← expired A (← get).managed.entries
  Procedure.forEach late fun id => failComponent A id now
  drain A now 2

/-! ### Prepared replacements -/

/-- The prepared replacements of a batch, each checked against what it replaces. -/
def checkBatch (s : ManagedRuntime σ ε) (now : ℕ) (seen : List ComponentId) : List ComponentId →
    Except ManagedAbort (List PreparedComponent)
  | [] => .ok []
  | id :: ids => do
    Checks.reject (id ∈ seen) (.component .invalidConfiguration)
    match s.prepared.get id with
    | none => .error (.component .unknown)
    | some prepared =>
      s.validateComponentDefinition prepared.staged.definition prepared.staged.replaces
      (ManagedInstance.validateManagedResult prepared.result prepared.staged.definition.manifest .init).mapError ManagedAbort.component
      match s.managed.get id with
      | none => .error (.component .unknown)
      | some old =>
        Checks.reject (checkedAdd old.generation 1 ≠ some prepared.staged.correlation.generation ∨ attemptedAfter old now = true)
          (.component .invalidResult)
        let rest ← s.checkBatch now (id :: seen) ids
        -- the revision is refreshed: ordinary steps may have been committed while the candidate was prepared
        return { prepared with staged :=
          { prepared.staged with correlation := { prepared.staged.correlation with revision := old.revision } } } :: rest

def commitPreparedComponents (A : ComponentExecutor F64 ε) (components : List ComponentId) (now : ℕ) : ManagedStep σ ε ℕ := do
  if components.isEmpty || decide (maxComponents < components.length) then refuse .invalidConfiguration
  let batch ← Procedure.lift ((← get).checkBatch now [] components)
  Procedure.forEach batch fun prepared => commitStaged A prepared.staged prepared.result now
  modify fun s => { s with prepared := s.prepared.retain fun id _ => !components.contains id }
  return components.length

def discardPreparedComponents : ManagedStep σ ε PUnit := modify fun s => { s with prepared := .empty }

/-! ### Quiescing -/

def quiesceManaged (A : ComponentExecutor F64 ε) (now : ℕ) : ManagedStep σ ε Unit := do
  core (Runtime.checkOutputTime now)
  let s ← get
  if s.managedQuiesced then pure ()
  else do
    modify fun s => { s with managedQuiesced := true, staged := none, prepared := .empty }
    cancelPending A (s.staged.map StagedComponent.correlation)
    Procedure.forEach s.managed.keys fun id => failComponent A id now
    modify fun s => { s with executor := s.executor.map A.beginShutdown }

/-- The first executor, under the next identity of the process. -/
def installComponentExecutor (executor : ε) (identity : ℕ) : ManagedStep σ ε Unit := do
  let s ← get
  if s.executor.isSome || s.staged.isSome || !s.managed.entries.isEmpty then refuse .busy
  modify fun s => { s with executor := some executor, componentRuntime := identity }

end ManagedRuntime
end LabRuntime
