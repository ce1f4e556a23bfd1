import LabRuntime.Managed.Correlations
import LabRuntime.Runtime.Sends

/-! What the committed steps of one generation have to do with each other: each starts from the state that the one before it
left, is about a later observation, and keeps the warm-up of its component. -/

namespace LabRuntime

open Lines (line Numbered mem_line)

/-! ### Answers and inputs -/

namespace ManagedInstance

variable {N : Type} [Scalar N] {result : ComponentResult N} {manifest : ComponentManifest N}

/-- An accepted step is Ready with a value in range, or has none. -/
theorem validated_step (h : validateManagedResult result manifest .step = .ok ()) :
    (result.status = .ready ∧ ∃ value, result.value = some value ∧ inRange manifest value = true) ∨
      result.status ≠ .ready ∧ result.value = none := by
  unfold validateManagedResult at h
  split_ifs at h with hshape
  cases hstatus : result.status with
  | init => simp [hstatus] at h
  | warming =>
    cases hvalue : result.value with
    | none => exact .inr ⟨by simp, rfl⟩
    | some value => simp [hstatus, hvalue] at h
  | unavailable =>
    cases hvalue : result.value with
    | none => exact .inr ⟨by simp, rfl⟩
    | some value => simp [hstatus, hvalue] at h
  | ready =>
    cases hvalue : result.value with
    | none => simp [hstatus, hvalue] at h
    | some value =>
      rw [hstatus, hvalue] at h
      dsimp only at h
      split_ifs at h with hrange
      exact .inl ⟨rfl, value, rfl, hrange⟩

theorem value_isSome_iff (h : validateManagedResult result manifest .step = .ok ()) :
    result.value.isSome = true ↔ result.status = .ready := by
  obtain ⟨hready, value, hvalue, -⟩ | ⟨hstatus, hvalue⟩ := validated_step h
  · simp [hready, hvalue]
  · simp [hstatus, hvalue]

end ManagedInstance

/-- The input that a component of this kind is invoked with. -/
def Fits (manifest : ComponentManifest F64) (input : Option (CapturedInput F64)) : Prop :=
  match manifest.kind with
  | .source => input = none
  | .transform signal => ∃ captured, input = some captured ∧ captured.signal = signal ∧ captured.value.isFinite = true ∧
      (captured.unit == manifest.unit) = true

namespace ManagedRuntime

variable {σ ε : Type} {s s' : ManagedRuntime σ ε}

theorem usableInput_some {manifest : ComponentManifest F64} {now : ℕ} {sample : Sample} {value : F64}
    (h : usableInput manifest now sample = some value) : value.isFinite = true ∧ (sample.unit == manifest.unit) = true := by
  unfold usableInput at h
  split_ifs at h with hstale
  simp only [not_or, Bool.not_eq_false] at hstale
  cases hvalue : sample.value with
  | none => simp [hvalue] at h
  | some reading =>
    rw [hvalue] at h
    cases reading with
    | float x =>
      dsimp only at h
      split_ifs at h with hfinite
      obtain rfl := Option.some.inj h
      exact ⟨hfinite, hstale.2.1⟩
    | _ => simp at h

theorem captured_fits {manifest : ComponentManifest F64} {now : ℕ} {input : Option (CapturedInput F64)}
    (h : s.captureComponentInput manifest now = .ok input) : Fits manifest input := by
  unfold captureComponentInput at h
  unfold Fits
  cases hkind : manifest.kind with
  | source =>
    rw [hkind] at h
    exact (Except.ok.inj h).symm
  | transform signal =>
    rw [hkind] at h
    dsimp only at h ⊢
    cases hsample : (s.runtime.signal signal).bind SignalBuffer.latest with
    | none => simp [hsample] at h
    | some sample =>
      rw [hsample] at h
      dsimp only at h
      cases husable : usableInput manifest now sample with
      | none => simp [husable] at h
      | some value =>
        rw [husable] at h
        obtain rfl := Except.ok.inj h
        obtain ⟨hfinite, hunit⟩ := usableInput_some husable
        exact ⟨_, rfl, rfl, hfinite, hunit⟩

/-! ### Threads -/

/-- How a committed step goes on from the earlier ones of its generation. -/
structure Continues (earlier : List CommittedStep) (entry : CommittedStep) : Prop where
  revision : entry.correlation.revision = earlier.length
  state : ∀ last, earlier.getLast? = some last → entry.state = last.result
  definition : ∀ last, earlier.getLast? = some last → entry.definition = last.definition
  observation : ∀ last, earlier.getLast? = some last → last.sourceTime < entry.sourceTime
  time : ∀ last, earlier.getLast? = some last → last.time < entry.time
  warm : entry.value.isSome = true → entry.definition.manifest.warmupSamples ≤ earlier.length + 1
  steady : (∃ other ∈ earlier, other.value.isSome = true) → entry.value.isSome = true

/-- What a committed step publishes, and what it was computed from. -/
structure Published (entry : CommittedStep) : Prop where
  range : ∀ value, entry.value = some value → ManagedInstance.inRange entry.definition.manifest value = true
  fits : Fits entry.definition.manifest entry.input
  fresh : ∀ input, entry.input = some input → entry.sourceTime = input.freshnessTime ∧ input.freshnessTime ≤ entry.time ∧
    entry.time - input.freshnessTime < entry.definition.manifest.maxInputAge

/-- What a component holds of the steps of its generation. -/
structure Holds (earlier : List CommittedStep) (c : PublishedComponent) : Prop where
  revision : c.revision = earlier.length
  goodSteps : c.goodSteps = min earlier.length c.definition.manifest.warmupSamples
  state : ∀ last, earlier.getLast? = some last → c.committed = last.result
  definition : ∀ last, earlier.getLast? = some last → c.definition = last.definition
  observation : ∀ last, earlier.getLast? = some last → c.lastObservation = some last.sourceTime
  service : ∀ last, earlier.getLast? = some last → c.lastService = some last.time
  ready : c.state ≠ .failed → (c.state = .ready ↔ ∃ entry ∈ earlier, entry.value.isSome = true)
  awaited : c.pending ≠ none → (∀ last, c.lastObservation = some last → last < c.sourceTime) ∧
    (∀ last, c.lastService = some last → last < c.pendingAt.getD 0) ∧ Fits c.definition.manifest c.pendingInput

variable {earlier : List CommittedStep} {c : PublishedComponent} {runtime now : ℕ} {completion : ComponentCompletion F64}
  {latest : CapturedInput F64 → Option Sample} {result : ComponentResult F64}

/-- The entry of an accepted answer. -/
def entryOf (c : PublishedComponent) (completion : ComponentCompletion F64) (result : ComponentResult F64) (now : ℕ) :
    CommittedStep :=
  ⟨completion.correlation, c.definition, c.committed, c.pendingInput, c.sourceTime, now, result.value, result.state⟩

theorem Holds.continues (h : Holds earlier c) (hawaits : c.Awaits runtime completion.correlation)
    (htime : c.OnTime completion.timely now latest) (husable : c.Usable result) :
    Continues earlier (entryOf c completion result now) := by
  obtain ⟨hobservation, hservice, -⟩ := h.awaited (by rw [hawaits.pending]; simp)
  refine ⟨hawaits.revision.symm.trans h.revision, h.state, h.definition, fun last hlast => ?_, fun last hlast => ?_, fun hvalue => ?_,
    fun hvalued => ?_⟩
  · exact hobservation _ (h.observation last hlast)
  · exact (hservice _ (h.service last hlast)).trans_le htime.scheduled
  · have hready := (ManagedInstance.value_isSome_iff husable.valid).1 hvalue
    have hwarm := husable.warmed hready
    show c.definition.manifest.warmupSamples ≤ earlier.length + 1
    unfold ManagedInstance.countAfter at hwarm
    have hcount := h.goodSteps
    omega
  · have hready := (h.ready hawaits.live).2 hvalued
    exact (ManagedInstance.value_isSome_iff husable.valid).2 (husable.steady hready)

theorem Holds.published (h : Holds earlier c) (hawaits : c.Awaits runtime completion.correlation)
    (htime : c.OnTime completion.timely now latest) (husable : c.Usable result) : Published (entryOf c completion result now) := by
  obtain ⟨-, -, hfits⟩ := h.awaited (by rw [hawaits.pending]; simp)
  refine ⟨fun value hvalue => ?_, hfits, fun input hinput => ?_⟩
  · obtain ⟨-, value', hvalue', hrange⟩ | ⟨-, hnone⟩ := ManagedInstance.validated_step husable.valid
    · obtain rfl := Option.some.inj (hvalue'.symm.trans hvalue)
      exact hrange
    · rw [show result.value = some value from hvalue] at hnone
      cases hnone
  · have hover := htime.input input hinput
    simp only [ManagedInstance.inputOver, Bool.or_eq_false_iff, decide_eq_false_iff_not, not_lt, not_le] at hover
    refine ⟨?_, hover.1.1, hover.1.2⟩
    show c.sourceTime = _
    rw [ManagedInstance.sourceTime, show c.pendingInput = some input from hinput]
    rfl

/-- The component after the step holds one more. -/
theorem Holds.stepped (h : Holds earlier c) (hawaits : c.Awaits runtime completion.correlation) (husable : c.Usable result)
    (hbound : c.revision + 1 ≤ u64Max) (signal : SignalBuffer) :
    Holds (earlier ++ [entryOf c completion result now])
      { c with toManagedInstance := c.stepped result (c.revision + 1) now, signal := signal } := by
  have hlast : ∀ last, (earlier ++ [entryOf c completion result now]).getLast? = some last → last = entryOf c completion result now :=
    fun last hlast => by simpa using hlast.symm
  refine ⟨?_, ?_, fun last heq => (by rw [hlast last heq]; rfl), fun last heq => (by rw [hlast last heq]; rfl),
    fun last heq => (by rw [hlast last heq]; rfl), fun last heq => (by rw [hlast last heq]; rfl), fun _ => ?_, fun hpending => ?_⟩
  · rw [List.length_append, ← h.revision]
    rfl
  · have hcount := h.goodSteps
    have hrevision := h.revision
    show c.countAfter = min (earlier ++ [_]).length c.definition.manifest.warmupSamples
    rw [List.length_append, ManagedInstance.countAfter]
    simp only [List.length_singleton]
    omega
  · have hvalue := ManagedInstance.value_isSome_iff husable.valid
    have hstate : (c.stepped result (c.revision + 1) now).state = .ready ↔ result.status = .ready := by
      simp only [ManagedInstance.stepped]
      split_ifs with hready <;> simp [hready]
    refine hstate.trans ⟨fun hready => ?_, ?_⟩
    · exact ⟨_, List.mem_append_right _ (List.mem_singleton_self _), hvalue.2 hready⟩
    · rintro ⟨entry, hentry, hsome⟩
      rcases List.mem_append.1 hentry with hentry | hentry
      · exact husable.steady ((h.ready hawaits.live).2 ⟨entry, hentry, hsome⟩)
      · obtain rfl := List.mem_singleton.1 hentry
        exact hvalue.1 hsome
  · exact absurd rfl hpending

theorem Holds.failed (h : Holds earlier c) (signal : SignalBuffer) :
    Holds earlier { c with toManagedInstance := c.fail, signal := signal } :=
  ⟨h.revision, h.goodSteps, h.state, h.definition, h.observation, h.service, fun hlive => absurd rfl hlive,
    fun hpending => absurd rfl hpending⟩

theorem Holds.awaiting (h : Holds earlier c) {runtime now : ℕ} {input : Option (CapturedInput F64)} {job : Invocation F64}
    (hbuilt : c.nextJob runtime now input = .ok job) (hfits : Fits c.definition.manifest input) :
    Holds earlier { c with toManagedInstance := c.awaiting job } := by
  obtain ⟨hobservation, hservice, -, -, -, -, htime, hinput⟩ := ManagedInstance.nextJob_ok hbuilt
  refine ⟨h.revision, h.goodSteps, h.state, h.definition, h.observation, h.service, h.ready, fun _ => ⟨?_, ?_, ?_⟩⟩
  · intro last hlast
    have hlater := hobservation last hlast
    show last < ManagedInstance.sourceTime (c.awaiting job)
    rw [ManagedInstance.sourceTime, ManagedInstance.awaiting, hinput, htime]
    cases input <;> exact hlater
  · intro last hlast
    have hlater := hservice last hlast
    show last < job.time
    rwa [htime]
  · show Fits c.definition.manifest job.input
    rwa [hinput]

/-- A new generation holds nothing yet. -/
theorem holds_nil (definition : ComponentDefinition F64) (generation : ℕ) (result : ComponentResult F64)
    (descriptor : InstrumentDescriptor) (signal : SignalBuffer) :
    Holds [] { toManagedInstance := .committing definition generation result, descriptor := descriptor, signal := signal } :=
  ⟨rfl, by simp [ManagedInstance.committing], (by simp), (by simp), (by simp), (by simp), fun _ => by simp [ManagedInstance.committing],
    fun hpending => absurd rfl hpending⟩

/-- The steps of every generation are a thread, and its component holds the end of it. -/
structure Threads (s : ManagedRuntime σ ε) : Prop where
  thread : History.Hitherto (fun earlier entry => Continues (line CommittedStep.line entry.line earlier) entry) s.committed
  published : ∀ entry ∈ s.committed, Published entry
  current : ∀ id c, s.managed.get id = some c → Holds (line CommittedStep.line (id, c.generation) s.committed) c
  past : ∀ entry ∈ s.committed, ∃ c, s.managed.get entry.correlation.component = some c ∧
    entry.correlation.generation ≤ c.generation

theorem Threads.same (h : s.Threads) (hmanaged : s'.managed = s.managed) (hcommitted : s'.committed = s.committed) : s'.Threads := by
  refine ⟨hcommitted ▸ h.thread, hcommitted ▸ h.published, ?_, ?_⟩
  · rw [hmanaged, hcommitted]
    exact h.current
  · rw [hmanaged, hcommitted]
    exact h.past

theorem Threads.stored (h : s.Threads) {id : ComponentId} {c : PublishedComponent} (hmanaged : s'.managed = s.managed.insert id c)
    (hcommitted : s'.committed = s.committed) (hholds : Holds (line CommittedStep.line (id, c.generation) s.committed) c)
    (hlater : ∀ old, s.managed.get id = some old → old.generation ≤ c.generation) : s'.Threads := by
  refine ⟨hcommitted ▸ h.thread, hcommitted ▸ h.published, ?_, ?_⟩
  · rw [hmanaged, hcommitted]
    intro other d hd
    obtain ⟨rfl, rfl⟩ | hold := OrderedMap.get_insert_cases _ hd
    · exact hholds
    · exact h.current other d hold
  · rw [hmanaged, hcommitted]
    exact fun entry hentry => later_stored (h.past entry hentry) hlater

theorem Threads.unused (h : s.Threads) {id : ComponentId} {generation : ℕ}
    (hnew : ∀ old, s.managed.get id = some old → old.generation < generation) :
    line CommittedStep.line (id, generation) s.committed = [] := by
  refine Lines.line_eq_nil fun entry hentry heq => ?_
  obtain ⟨old, hold, hgeneration⟩ := h.past entry hentry
  obtain ⟨rfl, rfl⟩ := Prod.mk.inj heq
  have := hnew old hold
  omega

theorem Threads.committed (h : s.Threads) {id : ComponentId} {c c' : PublishedComponent} {entry : CommittedStep}
    (hget : s.managed.get id = some c) (hline : entry.line = (id, c.generation)) (hgeneration : c'.generation = c.generation)
    (hcontinues : Continues (line CommittedStep.line (id, c.generation) s.committed) entry) (hpublished : Published entry)
    (hholds : Holds (line CommittedStep.line (id, c.generation) s.committed ++ [entry]) c')
    (hmanaged : s'.managed = s.managed.insert id c') (hcommitted : s'.committed = s.committed ++ [entry]) : s'.Threads := by
  refine ⟨?_, ?_, ?_, ?_⟩
  · rw [hcommitted, History.hitherto_snoc, hline]
    exact ⟨h.thread, hcontinues⟩
  · rw [hcommitted]
    intro other hother
    rcases List.mem_append.1 hother with hother | hother
    · exact h.published other hother
    · obtain rfl := List.mem_singleton.1 hother
      exact hpublished
  · rw [hmanaged, hcommitted]
    intro other d hd
    obtain ⟨rfl, rfl⟩ | ⟨hne, hold⟩ := OrderedMap.get_insert_split _ hd
    · rw [hgeneration, Lines.line_snoc hline]
      exact hholds
    · rw [Lines.line_snoc_of_ne]
      · exact h.current other d hold
      · rw [hline]
        exact fun heq => hne (Prod.mk.inj heq).1.symm
  · rw [hmanaged, hcommitted]
    intro other hother
    rcases List.mem_append.1 hother with hother | hother
    · refine later_stored (h.past other hother) fun old hold => ?_
      rw [hget] at hold
      obtain rfl := Option.some.inj hold
      exact hgeneration.ge
    · obtain rfl := List.mem_singleton.1 hother
      obtain ⟨hid, hentry⟩ := Prod.mk.inj hline
      rw [hid, hentry]
      exact ⟨c', OrderedMap.get_insert_self _, hgeneration.ge⟩

theorem Change.threads (h : s.Change s') (hs : s.Sound) (hi : s.Threads) : s'.Threads := by
  have hkept : ∀ (t : ManagedRuntime σ ε) (id : ComponentId) (c c' : PublishedComponent), s.managed.get id = some c →
      t.managed = s.managed.insert id c' → t.committed = s.committed → c'.generation = c.generation →
      (Holds (line CommittedStep.line (id, c.generation) s.committed) c →
        Holds (line CommittedStep.line (id, c.generation) s.committed) c') → t.Threads := by
    intro t id c c' hget hmanaged hcommitted hgeneration hholds
    refine hi.stored hmanaged hcommitted (hgeneration ▸ hholds (hi.current id c hget)) fun old hold => ?_
    rw [hget] at hold
    obtain rfl := Option.some.inj hold
    exact hgeneration.ge
  cases h with
  | aside h => exact hi.same h.managed h.committed
  | @created staged result descriptor signal pending fresh =>
    have hfresh := (hs.staged _ pending).1.fresh fresh
    have hnone : ∀ old, s.managed.get staged.definition.manifest.id = some old → False := fun old hold => by
      rw [hfresh] at hold
      cases hold
    refine hi.stored rfl rfl ?_ fun old hold => (hnone old hold).elim
    have hunused : line CommittedStep.line (staged.definition.manifest.id, staged.correlation.generation) s.committed = [] :=
      hi.unused fun old hold => (hnone old hold).elim
    exact hunused.symm ▸ holds_nil _ _ _ _ _
  | @replaced id old definition generation result descriptor now isOpen hget own keeps next =>
    obtain ⟨hsum, -⟩ := checkedAdd_eq_some.1 next
    have hlater : ∀ old, s.managed.get id = some old → old.generation < generation := fun old hold => by
      rw [hget] at hold
      obtain rfl := Option.some.inj hold
      omega
    refine hi.stored rfl rfl ?_ fun old hold => (hlater old hold).le
    exact (hi.unused hlater).symm ▸ holds_nil _ _ _ _ _
  | failing hget => exact hkept _ _ _ _ hget rfl rfl rfl fun hholds => hholds.failed _
  | invoked hget live idle isOpen captured built =>
    exact hkept _ _ _ _ hget rfl rfl rfl fun hholds => hholds.awaiting built (captured_fits captured)
  | @committed c completion value sourceTime next published sample now hget decided publishes clock =>
    obtain ⟨result, -, hawaits, htime, husable, rfl, rfl, hbound, hpublished⟩ := committed_ok decided publishes
    have hholds := hi.current _ c hget
    have hentry : entryOf c completion result now = ⟨completion.correlation, c.definition, c.committed, c.pendingInput, c.sourceTime,
        now, result.value, published.committed⟩ := by rw [hpublished]; rfl
    refine hi.committed hget ?_ ?_ (hentry ▸ hholds.continues hawaits htime husable) (hentry ▸ hholds.published hawaits htime husable)
      ?_ rfl rfl
    · rw [CommittedStep.line, ← hawaits.generation]
    · rw [hpublished]
      rfl
    · rw [← hentry, hpublished]
      exact hholds.stepped hawaits husable hbound published.signal
  | _ => exact hi.same rfl rfl

/-! ### Runs -/

theorem run_threads (M : Platform σ ε) (ops : List (Op σ ε)) : (run M ops).Threads :=
  run_keeps (fun _ _ hs hi hchange => hchange.threads hs hi)
    ⟨History.hitherto_nil, fun _ hentry => (by cases hentry), fun _ _ hc => (by cases hc), fun _ hentry => (by cases hentry)⟩ M ops

/-- The committed steps of each generation of a component are one thread: the revisions count them, each starts from the state and
the definition that the one before it left, is about a later observation at a later time, keeps the warm-up, and publishes a value
once one was published. The component holds the end of the thread of its generation. -/
theorem committed_thread (M : Platform σ ε) (ops : List (Op σ ε)) :
    History.Hitherto (fun earlier entry => Continues (line CommittedStep.line entry.line earlier) entry) (run M ops).committed ∧
      ∀ id c, (run M ops).managed.get id = some c → Holds (line CommittedStep.line (id, c.generation) (run M ops).committed) c :=
  ⟨(run_threads M ops).thread, (run_threads M ops).current⟩

/-- Every published value is finite and in the range of its manifest, and was computed from the input that the kind of the
component asks for, which was still fresh when the step was committed. -/
theorem committed_published (M : Platform σ ε) (ops : List (Op σ ε)) : ∀ entry ∈ (run M ops).committed, Published entry :=
  (run_threads M ops).published

/-! ### A bench -/

/-- Workers that answer the jobs in order, every step with the same value. -/
def echo : ComponentExecutor F64 (List (Invocation F64)) where
  trySubmit job jobs := (.ok (), jobs ++ [job])
  tryPoll jobs := match jobs with
    | [] => (none, [])
    | job :: rest =>
      let result : ComponentResult F64 := match job.phase with
        | .init => ⟨.init, none, job.definition.manifest.unit, .default, []⟩
        | .step => ⟨.ready, some (F64.ofInt 5), job.definition.manifest.unit, .default, []⟩
      (some ⟨job.correlation, true, .ok result⟩, rest)
  tryCancel correlation jobs := jobs.filter fun job => decide (job.correlation ≠ correlation)
  tryExpire _ jobs := (false, jobs)
  beginShutdown _ := []

def bench : Platform Unit (List (Invocation F64)) := ⟨Runtime.noTransport, echo, id⟩

def benchSource : ComponentDefinition F64 where
  manifest := ⟨1, 7, 9, "source", 1, .source, .celsius, F64.ofInt 0, F64.ofInt 10, 1, 1000, 4⟩
  implementation := ⟨"source", by decide⟩
  config := .default

/-- A transform of the source. -/
def benchMean : ComponentDefinition F64 where
  manifest := ⟨1, 8, 10, "mean", 1, .transform ⟨9, 1⟩, .celsius, F64.ofInt 0, F64.ofInt 10, 1, 1000, 4⟩
  implementation := ⟨"mean", by decide⟩
  config := .default

/-- The source steps, and then the transform of its value. -/
def meanRun : List (Op Unit (List (Invocation F64))) :=
  [.installComponentExecutor [] 1, .stageComponent benchSource none 1, .pollComponents 2, .invokeComponent 7 3, .pollComponents 4,
    .stageComponent benchMean none 5, .pollComponents 6, .invokeComponent 8 7, .pollComponents 8]

set_option maxRecDepth 100000 in
theorem bench_mean_publishes :
    (run bench meanRun).committed.length = 2 ∧ Published ((run bench meanRun).committed.getLast (by decide +kernel)) :=
  ⟨by decide +kernel, committed_published bench meanRun _ (List.getLast_mem _)⟩

end ManagedRuntime
end LabRuntime
