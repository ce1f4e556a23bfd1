import LabRuntime.Lib.RunningMean
import LabRuntime.Managed.Component
import LabRuntime.Managed.MovingMean
import Mathlib.Algebra.Order.Ring.Rat
import Mathlib.Algebra.Field.Rat
import Mathlib.Data.Rat.Cast.Order

/-! The moving mean against the owner's warm-up rules, in exact arithmetic: whatever happens to a
component of this implementation after its initialisation, its state is the window of the inputs
committed so far. -/

namespace LabRuntime

/-! ### Exact arithmetic -/

@[simp] theorem rat_isFinite (x : ℚ) : Scalar.isFinite x = true := rfl
@[simp] theorem rat_le (x y : ℚ) : Scalar.le x y = decide (x ≤ y) := rfl
@[simp] theorem rat_same (x y : ℚ) : Scalar.same x y = decide (x = y) := rfl
@[simp] theorem rat_ofInt (i : ℤ) : (Scalar.ofInt i : ℚ) = i := rfl
@[simp] theorem rat_add (x y : ℚ) : Scalar.add x y = x + y := rfl
@[simp] theorem rat_sub (x y : ℚ) : Scalar.sub x y = x - y := rfl
@[simp] theorem rat_div (x y : ℚ) : Scalar.div x y = x / y := rfl
@[simp] theorem rat_toNat (x : ℚ) : Scalar.toNat x = x.floor.toNat := rfl

namespace MovingMean

open RunningMean

/-- A configured window is one of the registered integers. -/
theorem configuredWindow_bounds {config : PlainData ℚ} {window : ℕ} (h : configuredWindow config = .ok window) :
    2 ≤ window ∧ window ≤ 64 := by
  unfold configuredWindow at h
  split_ifs at h
  split at h
  · next value _ =>
    split_ifs at h with hbad
    simp only [rat_le, rat_ofInt, not_or, not_not, decide_eq_true_eq] at hbad
    obtain ⟨_, _, hlow, hhigh⟩ := hbad
    obtain rfl : value.floor.toNat = window := Except.ok.inj h
    have hlow' : (2 : ℤ) ≤ value.floor := Rat.le_floor_iff.2 (by exact_mod_cast hlow)
    have hhigh' : value.floor ≤ 64 := by
      have hle : (value.floor : ℚ) ≤ ((64 : ℤ) : ℚ) := (Rat.floor_le _).trans (by exact_mod_cast hhigh)
      exact_mod_cast hle
    omega
  · cases h

/-- The incremental update computes the arithmetic mean. -/
theorem foldlM_update (xs : List ℚ) : xs.foldlM update ((0 : ℚ), 0) = .ok (mean xs, xs.length) := by
  induction xs using List.reverseRecOn with
  | nil => simp [mean, pure, Except.pure]
  | append_singleton xs x ih =>
    have hstep : update (mean xs, xs.length) x = .ok (mean (xs ++ [x]), (xs ++ [x]).length) := by
      rw [mean_append, List.length_append, List.length_singleton]
      simp [update]
    rw [List.foldlM_append, ih, Checks.ok_bind, List.foldlM_cons, hstep, Checks.ok_bind]
    rfl

theorem meanOf_eq (xs : List ℚ) : meanOf xs = .ok (mean xs) := by
  rw [meanOf, rat_ofInt, Int.cast_zero, foldlM_update]
  rfl

/-! ### The state -/

section State

variable {N : Type}

theorem stateOf_size (values : List N) : (stateOf values).fields.size = 1 := rfl

theorem stateOf_get (values : List N) : (stateOf values).fields.get valuesField = some (.numbers values) :=
  OrderedMap.get_insert_self _

/-- A window of finite numbers is plain data within its bounds. -/
theorem stateOf_validate [Scalar N] {values : List N} (hlength : values.length ≤ 64)
    (hfinite : ∀ value ∈ values, Scalar.isFinite value = true) : (stateOf values).validate = .ok () := by
  have hcount : PlainData.countField (0, 0) (valuesField, PlainValue.numbers values) =
      .ok (0 + (6 + 1 + (3 + values.length * 8)), 0 + values.length) := by
    have hall : values.length ≤ 64 ∧ values.all Scalar.isFinite = true := ⟨hlength, List.all_eq_true.2 hfinite⟩
    have hkey : PlainData.keyValid valuesField = true := by decide +kernel
    have hsize : valuesField.utf8ByteSize = 6 := by decide +kernel
    simp only [PlainData.countField, PlainData.measure, hkey, Bool.true_eq_false, if_false, if_pos hall, hsize, maxPlainBytes]
    rw [if_neg (by omega)]
  have hentries : (stateOf values).fields.entries = [(valuesField, .numbers values)] := rfl
  rw [PlainData.validate, hentries, List.length_singleton, List.foldlM_cons, hcount]
  rfl

end State

/-! ### One step -/

/-- What a step computes: the window slid by the input, and its mean once the window is full. -/
def resultOf (unit : EngineeringUnit) (window : ℕ) (values : List ℚ) : ComponentResult ℚ :=
  { status := if values.length = window then .ready else .warming
    value := if values.length = window then some (mean values) else none
    unit := unit
    state := stateOf values
    diagnostics := [] }

theorem run_step {job : Invocation ℚ} {window : ℕ} {input : CapturedInput ℚ} {inputs : List ℚ}
    (hwindow : configuredWindow job.definition.config = .ok window) (hphase : job.phase = .step) (hinput : job.input = some input)
    (hunit : (input.unit == job.definition.manifest.unit) = true) (hstate : job.state = stateOf (inputs.rtake window))
    (deadline : ℕ) (before after : Glance) :
    run job deadline before after = .error .deadline ∨
      run job deadline before after = .ok (resultOf job.definition.manifest.unit window ((inputs ++ [input.value]).rtake window)) := by
  obtain ⟨hlow, _⟩ := configuredWindow_bounds hwindow
  unfold run checkDeadline
  by_cases hbefore : before.cancelled = true ∨ deadline ≤ before.now
  · rw [if_pos hbefore]
    exact .inl rfl
  · rw [if_neg hbefore, Checks.ok_bind, hwindow, Checks.ok_bind, hphase, hinput]
    dsimp only
    rw [hstate, stateOf_size, stateOf_get]
    have hfits : ¬ (window < (inputs.rtake window).length ∨
        ((inputs.rtake window).any fun value => !Scalar.isFinite value) = true) := by
      rw [length_rtake]
      simp
    rw [if_neg (by simp [hunit]), if_neg (by simp)]
    dsimp only
    rw [if_neg hfits]
    by_cases hafter : after.cancelled = true ∨ deadline ≤ after.now
    · rw [if_pos hafter]
      exact .inl rfl
    · rw [if_neg hafter, Checks.ok_bind, ← rtake_append (by omega)]
      refine .inr ?_
      unfold resultOf
      split_ifs with hfull
      · rw [meanOf_eq]
        rfl
      · rfl

/-- The result of a step passes the owner's checks. -/
theorem resultOf_valid {manifest : ComponentManifest ℚ} {window : ℕ} {values : List ℚ} (hlow : 2 ≤ window) (hhigh : window ≤ 64)
    (hlength : values.length ≤ window) (hrange : ∀ value ∈ values, ManagedInstance.inRange manifest value = true) :
    ManagedInstance.validateManagedResult (resultOf manifest.unit window values) manifest .step = .ok () := by
  have hvalidate : (stateOf values).validate = .ok () := stateOf_validate (by omega) fun _ _ => rfl
  have hunit : (manifest.unit == manifest.unit) = true := (EngineeringUnit.beq_iff _ _).2 rfl
  unfold ManagedInstance.validateManagedResult
  rw [if_neg (by simp [resultOf, hunit, hvalidate])]
  by_cases hfull : values.length = window
  · have hne : values ≠ [] := by
      rintro rfl
      simp at hfull
      omega
    have hmean : ManagedInstance.inRange manifest (mean values) = true := by
      simp only [ManagedInstance.inRange, rat_isFinite, rat_le, Bool.true_and, Bool.and_eq_true, decide_eq_true_eq] at hrange ⊢
      exact ⟨le_mean hne fun value hmem => (hrange value hmem).1, mean_le hne fun value hmem => (hrange value hmem).2⟩
    simp only [resultOf, if_pos hfull, hmean, if_true]
  · simp only [resultOf, if_neg hfull]

/-! ### Runs -/

/-- A component after its initialisation: the job it awaits, and the inputs and values its steps have
committed so far. -/
structure Progress (N : Type) where
  component : ManagedInstance N
  job : Option (Invocation N)
  inputs : List N
  published : List (Option N)

/-- What can happen to a component. An answer of its job is what the implementation computes, or the
error of a worker that did not; `accepted` is whether the owner's buffer takes the sample. -/
inductive Event (N : Type)
  | invoke (now : ℕ) (input : CapturedInput N)
  | answer (now : ℕ) (timely : Bool) (deadline : ℕ) (before after : Glance) (latest : CapturedInput N → Option Sample)
      (accepted : Bool)
  | lost (now : ℕ) (timely : Bool) (error : ComponentError) (latest : CapturedInput N → Option Sample)
  | foreign (completion : ComponentCompletion N) (now : ℕ) (latest : CapturedInput N → Option Sample)
  | fail

namespace Progress

variable {N : Type} [Scalar N]

def fail (s : Progress N) : Progress N := { s with component := s.component.fail, job := none }

/-- What a completion leaves of the component, as `commit_step`. -/
def settle (s : Progress N) (runtime : ℕ) (completion : ComponentCompletion N) (now : ℕ)
    (latest : CapturedInput N → Option Sample) (accepted : Bool) : Progress N :=
  match s.component.decideStep runtime completion now latest with
  | .ignored => s
  | .failed => s.fail
  | .committed value _ next =>
    if accepted = false then s.fail
    else
      { component := next
        job := none
        inputs := s.inputs ++ ((s.job.bind Invocation.input).map CapturedInput.value).toList
        published := s.published ++ [value] }

def step (runtime : ℕ) (s : Progress N) : Event N → Progress N
  | .invoke now input =>
    if s.component.state = .failed ∨ s.component.pending.isSome = true then s
    else
      match s.component.nextJob runtime now (some input) with
      | .error _ => s
      | .ok job => { s with component := s.component.awaiting job, job := some job }
  | .answer now timely deadline before after latest accepted =>
    match s.job with
    | none => s
    | some job =>
      s.settle runtime
        { correlation := job.correlation, timely := timely, outcome := Registry.runRegistered job deadline before after }
        now latest accepted
  | .lost now timely error latest =>
    match s.job with
    | none => s
    | some job => s.settle runtime { correlation := job.correlation, timely := timely, outcome := .error error } now latest true
  | .foreign completion now latest =>
    if s.component.pending = some completion.correlation then s else s.settle runtime completion now latest true
  | .fail => s.fail

def run (runtime : ℕ) (s : Progress N) (events : List (Event N)) : Progress N := events.foldl (step runtime) s

/-- A component as its initialisation commits it. -/
def start (definition : ComponentDefinition N) (generation : ℕ) (initial : ComponentResult N) : Progress N :=
  { component := .committing definition generation initial, job := none, inputs := [], published := [] }

end Progress

/-- An input as `capture_component_input` returns it, of a value within the manifest's range. -/
def Event.inRange (manifest : ComponentManifest ℚ) : Event ℚ → Prop
  | .invoke _ input => (input.unit == manifest.unit) = true ∧ ManagedInstance.inRange manifest input.value = true
  | _ => True

/-- A definition of this implementation with its window. -/
structure Configured (definition : ComponentDefinition ℚ) (window : ℕ) : Prop where
  implementation : definition.implementation = implementation
  configured : configuredWindow definition.config = .ok window
  warmup : definition.manifest.warmupSamples = window
  kind : ∃ input, definition.manifest.kind = .transform input

theorem compose_configured {request : NativeComponentDefinition ℚ} {definition : ComponentDefinition ℚ}
    (h : compose request = .ok definition) : ∃ window, Configured definition window := by
  unfold compose at h
  cases hinput : request.input with
  | none => simp [hinput] at h
  | some input =>
    rw [hinput] at h
    obtain ⟨window, hwindow, h⟩ := Checks.bind_ok.1 h
    obtain rfl := Except.ok.inj h
    exact ⟨window, rfl, hwindow, rfl, input, rfl⟩

/-- The registry runs a configured job by this implementation, past its validation. -/
theorem Configured.runRegistered {definition : ComponentDefinition ℚ} {window : ℕ} (hd : Configured definition window) {job : Invocation ℚ}
    (hjob : job.definition = definition) (deadline : ℕ) (before after : Glance) :
    Registry.runRegistered job deadline before after = MovingMean.run job deadline before after := by
  have hvalidate : validate job = .ok () := by
    obtain ⟨source, hkind⟩ := hd.kind
    unfold validate
    rw [hjob, hkind]
    dsimp only
    rw [hd.configured, Checks.ok_bind, if_neg (by simp [hd.warmup])]
  unfold Registry.runRegistered Registry.registration
  rw [hjob, if_pos hd.implementation]
  dsimp only [Registry.movingMean]
  rw [hvalidate, Checks.ok_bind]

/-- The result of an initialisation. -/
def initialOf (definition : ComponentDefinition ℚ) : ComponentResult ℚ :=
  { status := .init, value := none, unit := definition.manifest.unit, state := stateOf [], diagnostics := [] }

theorem Configured.initialises {definition : ComponentDefinition ℚ} {window : ℕ} (hd : Configured definition window)
    (correlation : Correlation) (now deadline : ℕ) (before after : Glance) :
    Registry.runRegistered (ManagedInstance.stagingJob definition correlation now) deadline before after =
      (checkDeadline deadline before >>= fun _ => .ok (initialOf definition)) := by
  rw [hd.runRegistered rfl, MovingMean.run]
  simp only [ManagedInstance.stagingJob, hd.configured, Checks.ok_bind]
  rfl

/-- The value a step publishes after these inputs. -/
def publication (window : ℕ) (inputs : List ℚ) : Option ℚ :=
  if inputs.length < window then none else some (mean (inputs.rtake window))

/-- What holds of the job a component awaits. -/
structure Asked (runtime : ℕ) (c : ManagedInstance ℚ) (job : Invocation ℚ) (captured : CapturedInput ℚ) : Prop where
  input : job.input = some captured
  unit : (captured.unit == c.definition.manifest.unit) = true
  range : ManagedInstance.inRange c.definition.manifest captured.value = true
  defined : job.definition = c.definition
  phase : job.phase = .step
  state : job.state = c.committed
  generation : c.generation = job.correlation.generation
  revision : c.revision = job.correlation.revision
  runtime : job.correlation.runtime = runtime
  live : c.state ≠ .failed
  pendingInput : c.pendingInput = some captured
  pendingAt : c.pendingAt = some job.time

/-- The component and what its steps have committed agree. -/
structure Agrees (definition : ComponentDefinition ℚ) (window runtime : ℕ) (s : Progress ℚ) : Prop where
  defined : s.component.definition = definition
  committed : s.component.committed = stateOf (s.inputs.rtake window)
  revision : s.component.revision = s.inputs.length
  goodSteps : s.component.goodSteps = min s.inputs.length window
  state : s.component.state = .failed ∨ s.component.state = if s.inputs.length < window then .warming else .ready
  range : ∀ input ∈ s.inputs, ManagedInstance.inRange definition.manifest input = true
  published : s.published = (List.range s.inputs.length).map fun k => publication window (s.inputs.take (k + 1))
  pending : s.component.pending = s.job.map Invocation.correlation
  job : ∀ job, s.job = some job → ∃ input, Asked runtime s.component job input

section Steps

variable {definition : ComponentDefinition ℚ} {window runtime : ℕ} {s : Progress ℚ}

theorem Agrees.fail (h : Agrees definition window runtime s) : Agrees definition window runtime s.fail where
  defined := h.defined
  committed := h.committed
  revision := h.revision
  goodSteps := h.goodSteps
  state := .inl rfl
  range := h.range
  published := h.published
  pending := rfl
  job _ hjob := by cases hjob

/-- The answer of the awaited job, if the implementation gave one. -/
theorem Agrees.runs (hd : Configured definition window) (h : Agrees definition window runtime s) {job : Invocation ℚ}
    {input : CapturedInput ℚ} (hjob : Asked runtime s.component job input) (deadline : ℕ) (before after : Glance) :
    Registry.runRegistered job deadline before after = .error .deadline ∨
      Registry.runRegistered job deadline before after =
        .ok (resultOf definition.manifest.unit window ((s.inputs ++ [input.value]).rtake window)) := by
  have hdefinition : job.definition = definition := hjob.defined.trans h.defined
  have hrun := @run_step job window _ s.inputs (by rw [hdefinition]; exact hd.configured) hjob.phase hjob.input
    (by rw [hjob.defined]; exact hjob.unit) (hjob.state.trans h.committed) deadline before after
  rw [hdefinition] at hrun
  rw [hd.runRegistered hdefinition]
  exact hrun

/-- The answer passes the owner's checks and its warm-up rules. -/
theorem Agrees.usable (hd : Configured definition window) (h : Agrees definition window runtime s) {job : Invocation ℚ}
    {input : CapturedInput ℚ} (hjob : Asked runtime s.component job input) :
    s.component.Usable (resultOf definition.manifest.unit window ((s.inputs ++ [input.value]).rtake window)) := by
  obtain ⟨hlow, hhigh⟩ := configuredWindow_bounds hd.configured
  have hlength : ((s.inputs ++ [input.value]).rtake window).length = min (s.inputs.length + 1) window := by
    rw [length_rtake, List.length_append, List.length_singleton]
  have hrange : ∀ value ∈ (s.inputs ++ [input.value]).rtake window, ManagedInstance.inRange definition.manifest value = true := by
    intro value hmem
    rcases List.mem_append.1 (mem_of_mem_rtake hmem) with hmem | hmem
    · exact h.range value hmem
    · obtain rfl := List.mem_singleton.1 hmem
      rw [← h.defined]
      exact hjob.range
  refine ⟨?_, ?_, ?_, ?_⟩
  · rw [h.defined]
    exact resultOf_valid hlow hhigh (by omega) hrange
  · unfold resultOf
    dsimp only
    split_ifs <;> simp
  · intro hready
    have hfull : ((s.inputs ++ [input.value]).rtake window).length = window := by
      by_contra hnot
      simp [resultOf, hnot] at hready
    rw [h.defined, hd.warmup, ManagedInstance.countAfter, h.goodSteps, h.defined, hd.warmup]
    have hbig : window ≤ u64Max := by unfold u64Max; omega
    omega
  · intro hready
    have hfull : ((s.inputs ++ [input.value]).rtake window).length = window := by
      rcases h.state with hstate | hstate
      · exact absurd hstate hjob.live
      · rw [hready] at hstate
        split_ifs at hstate
        omega
    simp [resultOf, hfull]

theorem publication_eq (unit : EngineeringUnit) (window : ℕ) (inputs : List ℚ) :
    (resultOf unit window (inputs.rtake window)).value = publication window inputs := by
  unfold resultOf publication
  rw [length_rtake]
  dsimp only
  by_cases hfull : inputs.length < window
  · rw [if_neg (by omega), if_pos hfull]
  · rw [if_pos (by omega), if_neg hfull]

/-- A committed step slides the window by its input. -/
theorem Agrees.stepped (h : Agrees definition window runtime s) (hd : Configured definition window) {captured : CapturedInput ℚ}
    {revision now : ℕ} {job : Invocation ℚ} (hjob : Asked runtime s.component job captured) (hrevision : checkedAdd s.component.revision 1 = some revision) :
    Agrees definition window runtime
      { component := s.component.stepped (resultOf definition.manifest.unit window ((s.inputs ++ [captured.value]).rtake window)) revision now
        job := none
        inputs := s.inputs ++ [captured.value]
        published := s.published ++ [publication window (s.inputs ++ [captured.value])] } := by
  obtain ⟨hlow, hhigh⟩ := configuredWindow_bounds hd.configured
  obtain ⟨rfl, _⟩ := checkedAdd_eq_some.1 hrevision
  have hbig : window ≤ u64Max := by unfold u64Max; omega
  refine ⟨h.defined, rfl, ?_, ?_, ?_, ?_, ?_, rfl, fun _ hnone => by cases hnone⟩
  · simp [ManagedInstance.stepped, h.revision]
  · show s.component.countAfter = _
    rw [ManagedInstance.countAfter, h.goodSteps, h.defined, hd.warmup, List.length_append, List.length_singleton]
    omega
  · refine .inr ?_
    have hlength : ((s.inputs ++ [captured.value]).rtake window).length = min (s.inputs.length + 1) window := by
      rw [length_rtake, List.length_append, List.length_singleton]
    simp only [ManagedInstance.stepped, resultOf, hlength, List.length_append, List.length_singleton]
    by_cases hfull : s.inputs.length + 1 < window
    · have hshort : ¬ min (s.inputs.length + 1) window = window := by omega
      simp [hshort, hfull]
    · have hwhole : min (s.inputs.length + 1) window = window := by omega
      simp [hwhole, hfull]
  · intro value hmem
    rcases List.mem_append.1 hmem with hmem | hmem
    · exact h.range value hmem
    · obtain rfl := List.mem_singleton.1 hmem
      rw [← h.defined]
      exact hjob.range
  · dsimp only
    rw [List.length_append, List.length_singleton, List.range_succ, List.map_append, h.published, List.map_singleton]
    congr 1
    · refine List.map_congr_left fun k hk => ?_
      rw [List.take_append_of_le_length (by have := List.mem_range.1 hk; omega)]
    · rw [List.take_of_length_le (by simp)]

/-- Either nothing was committed, or one step was. -/
def Advances (s s' : Progress ℚ) : Prop :=
  s'.inputs = s.inputs ∧ s'.published = s.published ∧ s'.component.committed = s.component.committed ∧
      s'.component.revision = s.component.revision ∨
    ∃ input value, s'.inputs = s.inputs ++ [input] ∧ s'.published = s.published ++ [value] ∧
      s'.component.revision = s.component.revision + 1

theorem Advances.refl (s : Progress ℚ) : Advances s s := .inl ⟨rfl, rfl, rfl, rfl⟩

/-- Whatever answers the awaited job, the component and its history still agree. -/
theorem Agrees.settle (h : Agrees definition window runtime s) (hd : Configured definition window) {job : Invocation ℚ}
    (hjob : s.job = some job) {completion : ComponentCompletion ℚ} {now : ℕ} {latest : CapturedInput ℚ → Option Sample}
    {accepted : Bool} (hresult : ∀ result captured, completion.outcome = .ok result → Asked runtime s.component job captured →
      result = resultOf definition.manifest.unit window ((s.inputs ++ [captured.value]).rtake window)) :
    Agrees definition window runtime (s.settle runtime completion now latest accepted) ∧
      Advances s (s.settle runtime completion now latest accepted) := by
  unfold Progress.settle
  cases hdecision : s.component.decideStep runtime completion now latest with
  | ignored => exact ⟨h, .refl s⟩
  | failed => exact ⟨h.fail, .refl s⟩
  | committed value sourceTime next =>
    obtain ⟨_, _, result, revision, houtcome, hrevision, _, rfl, rfl, rfl⟩ := ManagedInstance.decideStep_committed hdecision
    obtain ⟨captured, hasked⟩ := h.job job hjob
    obtain rfl := hresult result captured houtcome hasked
    dsimp only
    cases accepted with
    | false => exact ⟨h.fail, .refl s⟩
    | true =>
      have hinput : ((s.job.bind Invocation.input).map CapturedInput.value).toList = [captured.value] := by
        rw [hjob, Option.bind_some, hasked.input]
        rfl
      rw [if_neg (by simp), hinput, publication_eq]
      refine ⟨h.stepped hd hasked hrevision, .inr ⟨captured.value, _, rfl, rfl, ?_⟩⟩
      exact (checkedAdd_eq_some.1 hrevision).1

/-- Every event keeps the agreement, and commits one step or nothing. -/
theorem Agrees.step (h : Agrees definition window runtime s) (hd : Configured definition window) {event : Event ℚ}
    (hrange : event.inRange definition.manifest) :
    Agrees definition window runtime (s.step runtime event) ∧ Advances s (s.step runtime event) := by
  cases event with
  | invoke now input =>
    simp only [Progress.step]
    by_cases hbusy : s.component.state = .failed ∨ s.component.pending.isSome = true
    · rw [if_pos hbusy]
      exact ⟨h, .refl s⟩
    · rw [if_neg hbusy]
      simp only [not_or] at hbusy
      cases hjob : s.component.nextJob runtime now (some input) with
      | error error => exact ⟨h, .refl s⟩
      | ok job =>
        obtain ⟨_, _, hcorrelation, hphase, hdefinition, hstate, htime, hinput⟩ := ManagedInstance.nextJob_ok hjob
        refine ⟨⟨h.defined, h.committed, h.revision, h.goodSteps, h.state, h.range, h.published, rfl, ?_⟩, .inl ⟨rfl, rfl, rfl, rfl⟩⟩
        intro job' heq
        obtain rfl := Option.some.inj heq
        obtain ⟨hunit, hin⟩ := hrange
        refine ⟨input, hinput, ?_, ?_, hdefinition, hphase, hstate, ?_, ?_, ?_, hbusy.1, hinput, rfl⟩
        · rw [← h.defined] at hunit
          exact hunit
        · rw [← h.defined] at hin
          exact hin
        · rw [hcorrelation]
          rfl
        · rw [hcorrelation]
          rfl
        · rw [hcorrelation]
  | answer now timely deadline before after latest accepted =>
    simp only [Progress.step]
    cases hjob : s.job with
    | none => exact ⟨h, .refl s⟩
    | some job =>
      refine h.settle hd hjob fun result captured houtcome hasked => ?_
      obtain hlate | hrun := h.runs hd hasked deadline before after
      · simp [hlate] at houtcome
      · exact (Except.ok.inj (hrun.symm.trans houtcome)).symm
  | lost now timely error latest =>
    simp only [Progress.step]
    cases hjob : s.job with
    | none => exact ⟨h, .refl s⟩
    | some job => exact h.settle hd hjob fun result captured houtcome _ => by cases houtcome
  | foreign completion now latest =>
    simp only [Progress.step]
    by_cases hpending : s.component.pending = some completion.correlation
    · rw [if_pos hpending]
      exact ⟨h, .refl s⟩
    · rw [if_neg hpending, Progress.settle, ManagedInstance.decideStep_ignored fun hawaits => hpending hawaits.pending]
      exact ⟨h, .refl s⟩
  | fail => exact ⟨h.fail, .inl ⟨rfl, rfl, rfl, rfl⟩⟩

theorem Agrees.run (h : Agrees definition window runtime s) (hd : Configured definition window) {events : List (Event ℚ)}
    (hrange : ∀ event ∈ events, event.inRange definition.manifest) : Agrees definition window runtime (s.run runtime events) := by
  induction events generalizing s with
  | nil => exact h
  | cons event events ih =>
    exact ih (h.step hd (hrange event List.mem_cons_self)).1 fun event' hmem => hrange event' (List.mem_cons_of_mem _ hmem)

theorem Agrees.onto (h : Agrees definition window runtime s) {job : Invocation ℚ} {captured : CapturedInput ℚ}
    (hjob : s.job = some job) (hasked : Asked runtime s.component job captured) : s.component.Awaits runtime job.correlation where
  pending := by rw [h.pending, hjob]; rfl
  generation := hasked.generation
  revision := hasked.revision
  runtime := hasked.runtime
  live := hasked.live

end Steps

/-- The initialisation of a definition, and the component it leaves. -/
theorem start_agrees {definition : ComponentDefinition ℚ} {window : ℕ} (hd : Configured definition window) {correlation : Correlation}
    {now deadline : ℕ} {before after : Glance} {initial : ComponentResult ℚ} (runtime generation : ℕ)
    (h : Registry.runRegistered (ManagedInstance.stagingJob definition correlation now) deadline before after = .ok initial) :
    ManagedInstance.validateManagedResult initial definition.manifest .init = .ok () ∧
      Agrees definition window runtime (Progress.start definition generation initial) := by
  obtain ⟨hlow, _⟩ := configuredWindow_bounds hd.configured
  obtain rfl : initialOf definition = initial := by
    rw [hd.initialises] at h
    obtain ⟨_, _, h⟩ := Checks.bind_ok.1 h
    exact Except.ok.inj h
  refine ⟨?_, rfl, ?_, rfl, ?_, .inr ?_, ?_, rfl, rfl, ?_⟩
  · have hvalidate : (stateOf ([] : List ℚ)).validate = .ok () := stateOf_validate (by simp) (by simp)
    have hunit : (definition.manifest.unit == definition.manifest.unit) = true := (EngineeringUnit.beq_iff _ _).2 rfl
    unfold ManagedInstance.validateManagedResult
    rw [if_neg (by simp [initialOf, hunit, hvalidate])]
    rfl
  · simp [Progress.start, ManagedInstance.committing, List.rtake, initialOf]
  · simp [Progress.start, ManagedInstance.committing]
  · show ComponentState.warming = if 0 < window then .warming else .ready
    rw [if_pos (by omega)]
  · simp [Progress.start]
  · simp [Progress.start]

/-- What the owner and the implementation agree on, at a state of a run. -/
structure Agreement (manifest : ComponentManifest ℚ) (runtime : ℕ) (s : Progress ℚ) : Prop where
  window : 2 ≤ manifest.warmupSamples ∧ manifest.warmupSamples ≤ 64
  committed : s.component.committed = stateOf (s.inputs.rtake manifest.warmupSamples)
  valid : s.component.committed.validate = .ok ()
  steps : s.component.revision = s.inputs.length
  published : s.published.length = s.inputs.length
  warming : ∀ k, 0 < k → k ≤ s.inputs.length → k < manifest.warmupSamples → s.published[k - 1]? = some none
  ready : ∀ k, manifest.warmupSamples ≤ k → k ≤ s.inputs.length →
    s.published[k - 1]? = some (some (mean ((s.inputs.take k).rtake manifest.warmupSamples)))
  between : ∀ k low high, manifest.warmupSamples ≤ k → k ≤ s.inputs.length →
    (∀ x ∈ (s.inputs.take k).rtake manifest.warmupSamples, low ≤ x ∧ x ≤ high) →
    low ≤ mean ((s.inputs.take k).rtake manifest.warmupSamples) ∧ mean ((s.inputs.take k).rtake manifest.warmupSamples) ≤ high
  /-- The implementation stops at its deadline, or its answer passes every check; the only other
  refusal of an answer in time is an exhausted revision. -/
  accepts : ∀ job, s.job = some job → ∀ deadline before after,
    Registry.runRegistered job deadline before after = .error .deadline ∨
      ∃ result, Registry.runRegistered job deadline before after = .ok result ∧
        ManagedInstance.validateManagedResult result manifest .step = .ok () ∧
        ∀ now latest, s.component.OnTime true now latest → s.component.revision < u64Max →
          ∃ next, s.component.decideStep runtime { correlation := job.correlation, timely := true, outcome := .ok result } now latest =
            .committed result.value s.component.sourceTime next
  advances : ∀ event : Event ℚ, event.inRange manifest → Advances s (s.step runtime event)

theorem Agrees.agreement {definition : ComponentDefinition ℚ} {window runtime : ℕ} {s : Progress ℚ} (hd : Configured definition window)
    (h : Agrees definition window runtime s) : Agreement definition.manifest runtime s := by
  obtain ⟨hlow, hhigh⟩ := configuredWindow_bounds hd.configured
  have hpublished : ∀ k, 0 < k → k ≤ s.inputs.length → s.published[k - 1]? = some (publication window (s.inputs.take k)) := by
    intro k hpos hle
    rw [h.published, List.getElem?_map, List.getElem?_range (by omega), Option.map_some, Nat.sub_add_cancel hpos]
  have htaken : ∀ k ≤ s.inputs.length, (s.inputs.take k).length = k := fun k hle => by rw [List.length_take]; omega
  refine ⟨?_, ?_, ?_, h.revision, ?_, ?_, ?_, ?_, ?_, fun event hrange => (h.step hd hrange).2⟩
  · rw [hd.warmup]
    exact ⟨hlow, hhigh⟩
  · rw [hd.warmup]
    exact h.committed
  · rw [h.committed]
    refine stateOf_validate ?_ fun _ _ => rfl
    rw [length_rtake]
    omega
  · rw [h.published, List.length_map, List.length_range]
  · intro k hpos hle hwarming
    rw [hd.warmup] at hwarming
    rw [hpublished k hpos hle, publication, if_pos (by rw [htaken k hle]; exact hwarming)]
  · intro k hready hle
    rw [hd.warmup] at hready ⊢
    rw [hpublished k (by omega) hle, publication, if_neg (by rw [htaken k hle]; omega)]
  · intro k low high hready hle hbounds
    rw [hd.warmup] at hready hbounds ⊢
    have hne : (s.inputs.take k).rtake window ≠ [] := by
      refine List.ne_nil_of_length_pos ?_
      rw [length_rtake, htaken k hle]
      omega
    exact ⟨le_mean hne fun x hmem => (hbounds x hmem).1, mean_le hne fun x hmem => (hbounds x hmem).2⟩
  · intro job hjob deadline before after
    obtain ⟨captured, hasked⟩ := h.job job hjob
    obtain hlate | hrun := h.runs hd hasked deadline before after
    · exact .inl hlate
    · have husable := h.usable hd hasked
      refine .inr ⟨_, hrun, ?_, fun now latest htime hrevision => ?_⟩
      · have hvalid := husable.valid
        rw [h.defined] at hvalid
        exact hvalid
      · have hnext : checkedAdd s.component.revision 1 = some (s.component.revision + 1) :=
          checkedAdd_eq_some.2 ⟨rfl, by omega⟩
        exact ⟨_, ManagedInstance.decideStep_commits (h.onto hjob hasked) htime rfl hnext husable⟩

/-- A mean of two samples of one signal. -/
def meanOfTwo : NativeComponentDefinition ℚ :=
  { id := 0, instrument := 1, name := "mean", input := some ⟨2, temperature⟩
    config := ⟨OrderedMap.empty.insert windowField (.number 2)⟩ }

def meanOfTwoDefinition : ComponentDefinition ℚ :=
  { manifest := { schemaVersion := 1, id := 0, instrument := 1, name := "mean", parameter := temperature
                  kind := .transform ⟨2, temperature⟩, unit := .celsius, min := Scalar.ofInt (-100), max := Scalar.ofInt 500, warmupSamples := 2
                  maxInputAge := 2000000000, historyCapacity := 32 }
    implementation := implementation
    config := meanOfTwo.config }

theorem meanOfTwo_composes : compose meanOfTwo = .ok meanOfTwoDefinition := by
  have hwindow : configuredWindow meanOfTwo.config = .ok 2 := by decide +kernel
  simp only [compose, meanOfTwo] at hwindow ⊢
  rw [hwindow]
  rfl

end MovingMean
end LabRuntime
