import LabRuntime.Managed.Definition

/-! One committed managed component: its invocations, what the owner makes of their completions,
and its failures. The signal it publishes belongs to the owner. -/

namespace LabRuntime

variable {N : Type}

/-- A committed component, without the signal it publishes. -/
structure ManagedInstance (N : Type) where
  definition : ComponentDefinition N
  generation : ℕ
  revision : ℕ
  attempt : ℕ
  state : ComponentState
  committed : PlainData N
  goodSteps : ℕ
  lastService : Option ℕ
  lastObservation : Option ℕ
  pending : Option Correlation
  pendingInput : Option (CapturedInput N)
  pendingAt : Option ℕ
  diagnostics : List String

/-- What becomes of a completion. -/
inductive StepDecision (N : Type)
  | ignored
  | failed
  | committed (value : Option N) (sourceTime : ℕ) (next : ManagedInstance N)

namespace ManagedInstance

section

variable [Scalar N]

/-- `(min..=max).contains(&value)`, of a finite value. -/
def inRange (manifest : ComponentManifest N) (value : N) : Bool :=
  Scalar.isFinite value && (Scalar.le manifest.min value && Scalar.le value manifest.max)

def validateManagedResult (result : ComponentResult N) (manifest : ComponentManifest N) (phase : InvocationPhase) :
    Except ComponentError Unit :=
  if (result.unit == manifest.unit) = false ∨ result.state.validate ≠ .ok () ∨ 4 < result.diagnostics.length ∨
      (∃ line ∈ result.diagnostics, 256 < line.utf8ByteSize) ∨ 1024 < (result.diagnostics.map String.utf8ByteSize).sum then
    .error .invalidResult
  else
    match phase, result.status, result.value with
    | .init, .init, none => .ok ()
    | .step, .warming, none => .ok ()
    | .step, .unavailable, none => .ok ()
    | .step, .ready, some value => if inRange manifest value = true then .ok () else .error .invalidResult
    | _, _, _ => .error .invalidResult

end

/-- What a validated initialisation commits. -/
def committing (definition : ComponentDefinition N) (generation : ℕ) (result : ComponentResult N) : ManagedInstance N :=
  { definition := definition
    generation := generation
    revision := 0
    attempt := 0
    state := .warming
    committed := result.state
    goodSteps := 0
    lastService := none
    lastObservation := none
    pending := none
    pendingInput := none
    pendingAt := none
    diagnostics := result.diagnostics }

/-- The job of an initialisation. -/
def stagingJob (definition : ComponentDefinition N) (correlation : Correlation) (now : ℕ) : Invocation N :=
  { correlation := correlation, phase := .init, definition := definition, state := .default, time := now, dt := 0, input := none }

/-- A failure is latched, and no job is awaited any more. -/
def fail (c : ManagedInstance N) : ManagedInstance N :=
  { c with state := .failed, pending := none, pendingInput := none, pendingAt := none }

/-- The job of the next step, for a component that has not failed and awaits none. -/
def nextJob (c : ManagedInstance N) (runtime now : ℕ) (input : Option (CapturedInput N)) : Except ComponentError (Invocation N) :=
  let observation := (input.map CapturedInput.freshnessTime).getD now
  if (∃ last, c.lastObservation = some last ∧ observation ≤ last) ∨ (∃ last, c.lastService = some last ∧ now ≤ last) then
    .error .inputUnavailable
  else
    match checkedAdd c.attempt 1 with
    | none => .error .identityExhausted
    | some attempt =>
      .ok {
        correlation :=
          { runtime := runtime, component := c.definition.manifest.id, generation := c.generation, attempt := attempt
            revision := c.revision }
        phase := .step
        definition := c.definition
        state := c.committed
        time := now
        dt := (c.lastObservation.map fun last => observation - last).getD 0
        input := input }

/-- The component once its job was admitted. -/
def awaiting (c : ManagedInstance N) (job : Invocation N) : ManagedInstance N :=
  { c with
    attempt := job.correlation.attempt
    pending := some job.correlation
    pendingInput := job.input
    pendingAt := some job.time }

/-- Whether the captured input is over, or its source no longer bears it out. -/
def inputOver (manifest : ComponentManifest N) (now : ℕ) (input : CapturedInput N) (latest : Option Sample) : Bool :=
  decide (now < input.freshnessTime) || decide (manifest.maxInputAge ≤ now - input.freshnessTime) ||
    match latest with
    | none => true
    | some sample => decide (sample.quality ≠ .good) || decide (sample.freshnessTime < input.freshnessTime)

/-- The accepted steps with one more, as far as they are counted. -/
def countAfter (c : ManagedInstance N) : ℕ := min (min (c.goodSteps + 1) u64Max) c.definition.manifest.warmupSamples

/-- The time of the observation a step is about. -/
def sourceTime (c : ManagedInstance N) : ℕ := (c.pendingInput.map CapturedInput.freshnessTime).getD (c.pendingAt.getD 0)

/-- The component after a committed step. -/
def stepped (c : ManagedInstance N) (result : ComponentResult N) (revision now : ℕ) : ManagedInstance N :=
  { c with
    revision := revision
    state := if result.status = .ready then .ready else .warming
    committed := result.state
    goodSteps := c.countAfter
    lastService := some now
    lastObservation := some c.sourceTime
    pending := none
    pendingInput := none
    pendingAt := none
    diagnostics := result.diagnostics }

/-- What `commit_step` decides on a completion, before the sample is published. `latest` is the latest
sample of the captured input's signal. -/
def decideStep [Scalar N] (c : ManagedInstance N) (runtime : ℕ) (completion : ComponentCompletion N) (now : ℕ)
    (latest : CapturedInput N → Option Sample) : StepDecision N :=
  if c.pending ≠ some completion.correlation ∨ c.generation ≠ completion.correlation.generation ∨
      c.revision ≠ completion.correlation.revision ∨ completion.correlation.runtime ≠ runtime ∨ c.state = .failed then
    .ignored
  else if completion.timely = false ∨ now < c.pendingAt.getD 0 ∨
      (∃ input, c.pendingInput = some input ∧ inputOver c.definition.manifest now input (latest input) = true) then
    .failed
  else
    match completion.outcome with
    | .error _ => .failed
    | .ok result =>
      if validateManagedResult result c.definition.manifest .step ≠ .ok () then .failed
      else
        match checkedAdd c.revision 1 with
        | none => .failed
        | some revision =>
          if result.status = .unavailable ∨ (result.status = .ready ∧ c.countAfter < c.definition.manifest.warmupSamples) ∨
              (c.state = .ready ∧ result.status ≠ .ready) then
            .failed
          else .committed result.value c.sourceTime (c.stepped result revision now)

/-- The conditions under which a completion is for the job this component awaits. -/
structure Awaits (c : ManagedInstance N) (runtime : ℕ) (correlation : Correlation) : Prop where
  pending : c.pending = some correlation
  generation : c.generation = correlation.generation
  revision : c.revision = correlation.revision
  runtime : correlation.runtime = runtime
  live : c.state ≠ .failed

/-- The conditions under which the answer may still be used. -/
structure OnTime (c : ManagedInstance N) (timely : Bool) (now : ℕ) (latest : CapturedInput N → Option Sample) : Prop where
  timely : timely = true
  scheduled : c.pendingAt.getD 0 ≤ now
  input : ∀ input, c.pendingInput = some input → inputOver c.definition.manifest now input (latest input) = false

/-- The conditions on the answer itself. -/
structure Usable [Scalar N] (c : ManagedInstance N) (result : ComponentResult N) : Prop where
  valid : validateManagedResult result c.definition.manifest .step = .ok ()
  available : result.status ≠ .unavailable
  warmed : result.status = .ready → c.definition.manifest.warmupSamples ≤ c.countAfter
  steady : c.state = .ready → result.status = .ready

variable {c : ManagedInstance N} {runtime now : ℕ} {completion : ComponentCompletion N}
  {latest : CapturedInput N → Option Sample}

theorem awaits_iff : ¬ (c.pending ≠ some completion.correlation ∨ c.generation ≠ completion.correlation.generation ∨
    c.revision ≠ completion.correlation.revision ∨ completion.correlation.runtime ≠ runtime ∨ c.state = .failed) ↔
      c.Awaits runtime completion.correlation := by
  simp only [not_or, not_not]
  exact ⟨fun h => ⟨h.1, h.2.1, h.2.2.1, h.2.2.2.1, h.2.2.2.2⟩,
    fun h => ⟨h.pending, h.generation, h.revision, h.runtime, h.live⟩⟩

theorem onTime_iff : ¬ (completion.timely = false ∨ now < c.pendingAt.getD 0 ∨
    (∃ input, c.pendingInput = some input ∧ inputOver c.definition.manifest now input (latest input) = true)) ↔
      c.OnTime completion.timely now latest := by
  simp only [not_or, not_exists, not_and, Bool.not_eq_false, Bool.not_eq_true, not_lt]
  exact ⟨fun h => ⟨h.1, h.2.1, h.2.2⟩, fun h => ⟨h.timely, h.scheduled, h.input⟩⟩

/-- The job of a step is about a later observation, at a later time, and numbered after the last. -/
theorem nextJob_ok {input : Option (CapturedInput N)} {job : Invocation N} (h : c.nextJob runtime now input = .ok job) :
    (∀ last, c.lastObservation = some last → last < (input.map CapturedInput.freshnessTime).getD now) ∧
      (∀ last, c.lastService = some last → last < now) ∧
      job.correlation = { runtime := runtime, component := c.definition.manifest.id, generation := c.generation
                          attempt := c.attempt + 1, revision := c.revision } ∧
      job.phase = .step ∧ job.definition = c.definition ∧ job.state = c.committed ∧ job.time = now ∧ job.input = input := by
  unfold nextJob at h
  dsimp only at h
  split_ifs at h with hlate
  simp only [not_or, not_exists, not_and, not_le] at hlate
  cases hattempt : checkedAdd c.attempt 1 with
  | none => simp [hattempt] at h
  | some attempt =>
    rw [hattempt] at h
    obtain rfl := Except.ok.inj h
    obtain ⟨rfl, _⟩ := checkedAdd_eq_some.1 hattempt
    exact ⟨hlate.1, hlate.2, rfl, rfl, rfl, rfl, rfl, rfl⟩

variable [Scalar N]

theorem decideStep_ignored (h : ¬ c.Awaits runtime completion.correlation) : c.decideStep runtime completion now latest = .ignored := by
  unfold decideStep
  rw [if_pos]
  by_contra hnone
  exact h (awaits_iff.1 hnone)

theorem decideStep_late (h : c.Awaits runtime completion.correlation) (hlate : ¬ c.OnTime completion.timely now latest) :
    c.decideStep runtime completion now latest = .failed := by
  unfold decideStep
  rw [if_neg (awaits_iff.2 h), if_pos]
  by_contra hnone
  exact hlate (onTime_iff.1 hnone)

/-- An awaited answer in time is decided by its result. -/
theorem decideStep_onTime (h : c.Awaits runtime completion.correlation) (htime : c.OnTime completion.timely now latest) :
    c.decideStep runtime completion now latest = .failed ∧
        (∀ result revision, completion.outcome = .ok result → checkedAdd c.revision 1 = some revision → ¬ c.Usable result) ∨
      ∃ result revision, completion.outcome = .ok result ∧ checkedAdd c.revision 1 = some revision ∧ c.Usable result ∧
        c.decideStep runtime completion now latest = .committed result.value c.sourceTime (c.stepped result revision now) := by
  unfold decideStep
  rw [if_neg (awaits_iff.2 h), if_neg (onTime_iff.2 htime)]
  cases completion.outcome with
  | error error => exact .inl ⟨rfl, by simp⟩
  | ok result =>
    dsimp only
    by_cases hvalid : validateManagedResult result c.definition.manifest .step = .ok ()
    · rw [if_neg (not_not.2 hvalid)]
      cases hrevision : checkedAdd c.revision 1 with
      | none => exact .inl ⟨rfl, by simp⟩
      | some revision =>
        dsimp only
        by_cases hstatus : result.status = .unavailable ∨
            (result.status = .ready ∧ c.countAfter < c.definition.manifest.warmupSamples) ∨ (c.state = .ready ∧ result.status ≠ .ready)
        · rw [if_pos hstatus]
          refine .inl ⟨rfl, fun result' revision' heq _ husable => ?_⟩
          obtain rfl := Except.ok.inj heq
          rcases hstatus with hstatus | ⟨hready, hcount⟩ | ⟨hready, hstatus⟩
          · exact husable.available hstatus
          · exact absurd (husable.warmed hready) (by omega)
          · exact hstatus (husable.steady hready)
        · rw [if_neg hstatus]
          simp only [not_or, not_and, not_not, not_lt] at hstatus
          exact .inr ⟨result, revision, rfl, rfl, ⟨hvalid, hstatus.1, hstatus.2.1, hstatus.2.2⟩, rfl⟩
    · rw [if_pos hvalid]
      refine .inl ⟨rfl, fun result' revision' heq _ husable => ?_⟩
      obtain rfl := Except.ok.inj heq
      exact hvalid husable.valid

/-- A completion that is committed met every condition, and leaves the stepped component. -/
theorem decideStep_committed {value : Option N} {sourceTime : ℕ} {next : ManagedInstance N}
    (h : c.decideStep runtime completion now latest = .committed value sourceTime next) :
    c.Awaits runtime completion.correlation ∧ c.OnTime completion.timely now latest ∧
      ∃ result revision, completion.outcome = .ok result ∧ checkedAdd c.revision 1 = some revision ∧ c.Usable result ∧
        value = result.value ∧ sourceTime = c.sourceTime ∧ next = c.stepped result revision now := by
  by_cases hawaits : c.Awaits runtime completion.correlation
  · by_cases htime : c.OnTime completion.timely now latest
    · obtain ⟨hfailed, _⟩ | ⟨result, revision, houtcome, hrevision, husable, hcommitted⟩ := decideStep_onTime hawaits htime
      · simp [hfailed] at h
      · rw [hcommitted] at h
        injection h with hvalue hsource hnext
        exact ⟨hawaits, htime, result, revision, houtcome, hrevision, husable, hvalue.symm, hsource.symm, hnext.symm⟩
    · simp [decideStep_late hawaits htime] at h
  · simp [decideStep_ignored hawaits] at h

theorem decideStep_ignored_iff :
    c.decideStep runtime completion now latest = .ignored ↔ ¬ c.Awaits runtime completion.correlation := by
  constructor
  · intro h hawaits
    by_cases htime : c.OnTime completion.timely now latest
    · obtain ⟨hfailed, _⟩ | ⟨_, _, _, _, _, hcommitted⟩ := decideStep_onTime hawaits htime
      · simp [hfailed] at h
      · simp [hcommitted] at h
    · simp [decideStep_late hawaits htime] at h
  · exact decideStep_ignored

/-- Under every condition the completion is committed. -/
theorem decideStep_commits {result : ComponentResult N} {revision : ℕ} (h : c.Awaits runtime completion.correlation)
    (htime : c.OnTime completion.timely now latest) (houtcome : completion.outcome = .ok result)
    (hrevision : checkedAdd c.revision 1 = some revision) (husable : c.Usable result) :
    c.decideStep runtime completion now latest = .committed result.value c.sourceTime (c.stepped result revision now) := by
  obtain ⟨_, hnone⟩ | ⟨result', revision', houtcome', hrevision', _, hcommitted⟩ := decideStep_onTime h htime
  · exact absurd husable (hnone result revision houtcome hrevision)
  · rw [houtcome] at houtcome'
    rw [hrevision] at hrevision'
    obtain rfl := Except.ok.inj houtcome'
    obtain rfl := Option.some.inj hrevision'
    exact hcommitted

end ManagedInstance
end LabRuntime
