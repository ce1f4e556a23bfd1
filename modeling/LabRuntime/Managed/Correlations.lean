import LabRuntime.Lib.Lines
import LabRuntime.Managed.Steps

/-! The jobs that were handed to the workers, and the answers that were committed: the jobs of one generation are numbered
one after another, and every committed step answers one of them, once. -/

namespace LabRuntime

open Lines (line Numbered mem_line)

/-- The generation of a component that a job is for. -/
def Invocation.line (job : Invocation F64) : ComponentId × ℕ := (job.correlation.component, job.correlation.generation)

/-- The generation of a component that committed a step. -/
def CommittedStep.line (entry : CommittedStep) : ComponentId × ℕ := (entry.correlation.component, entry.correlation.generation)

namespace ManagedRuntime

variable {σ ε : Type} {s s' : ManagedRuntime σ ε}

/-- The steps among the submitted jobs. -/
def steps (s : ManagedRuntime σ ε) : List (Invocation F64) := s.submitted.filter fun job => decide (job.phase = .step)

theorem mem_steps {job : Invocation F64} : job ∈ s.steps ↔ job ∈ s.submitted ∧ job.phase = .step := by simp [steps]

theorem steps_snoc {job : Invocation F64} (hphase : job.phase = .step) (h : s'.submitted = s.submitted ++ [job]) :
    s'.steps = s.steps ++ [job] := by simp [steps, h, hphase]

theorem steps_init {job : Invocation F64} (hphase : job.phase = .init) (h : s'.submitted = s.submitted ++ [job]) :
    s'.steps = s.steps := by simp [steps, h, hphase]

/-- A generation that has been is still not over when a later one is stored. -/
theorem later_stored {m : OrderedMap ComponentId PublishedComponent} {id component : ComponentId} {generation : ℕ}
    {c : PublishedComponent} (h : ∃ old, m.get component = some old ∧ generation ≤ old.generation)
    (hlater : ∀ old, m.get id = some old → old.generation ≤ c.generation) :
    ∃ current, (m.insert id c).get component = some current ∧ generation ≤ current.generation := by
  obtain ⟨old, hold, hle⟩ := h
  by_cases hid : component = id
  · subst hid
    exact ⟨c, OrderedMap.get_insert_self _, hle.trans (hlater old hold)⟩
  · exact ⟨old, by rw [OrderedMap.get_insert_of_ne _ hid, hold], hle⟩

/-! ### Attempts -/

/-- The steps of each generation are numbered from one, and the component counts those of its own. -/
structure Attempts (s : ManagedRuntime σ ε) : Prop where
  numbered : Numbered Invocation.line (fun job => job.correlation.attempt) 1 s.steps
  current : ∀ id c, s.managed.get id = some c → c.attempt = (line Invocation.line (id, c.generation) s.steps).length
  past : ∀ job ∈ s.steps, ∃ c, s.managed.get job.correlation.component = some c ∧ job.correlation.generation ≤ c.generation
  inits : ∀ job ∈ s.submitted, job.phase = .init → job.correlation.attempt = 0

/-- No two steps have one correlation. -/
theorem Attempts.apart (h : s.Attempts) : (s.steps.map Invocation.correlation).Nodup := by
  refine List.pairwise_map.2 (h.numbered.pairwise.imp fun hlt heq => ?_)
  refine Nat.ne_of_lt (hlt ?_) (congrArg Correlation.attempt heq)
  rw [Invocation.line, heq, Invocation.line]

theorem Attempts.same (h : s.Attempts) (hmanaged : s'.managed = s.managed) (hsubmitted : s'.submitted = s.submitted) : s'.Attempts := by
  have hsteps : s'.steps = s.steps := by rw [steps, hsubmitted, steps]
  refine ⟨hsteps ▸ h.numbered, ?_, ?_, hsubmitted ▸ h.inits⟩
  · rw [hmanaged, hsteps]
    exact h.current
  · rw [hmanaged, hsteps]
    exact h.past

/-- A component takes the place of another one, or of none, with the steps of its own generation. -/
theorem Attempts.stored (h : s.Attempts) {id : ComponentId} {c : PublishedComponent} (hmanaged : s'.managed = s.managed.insert id c)
    (hsubmitted : s'.submitted = s.submitted) (hcount : c.attempt = (line Invocation.line (id, c.generation) s.steps).length)
    (hlater : ∀ old, s.managed.get id = some old → old.generation ≤ c.generation) : s'.Attempts := by
  have hsteps : s'.steps = s.steps := by rw [steps, hsubmitted, steps]
  refine ⟨hsteps ▸ h.numbered, ?_, ?_, hsubmitted ▸ h.inits⟩
  · rw [hmanaged, hsteps]
    intro other d hd
    obtain ⟨rfl, rfl⟩ | hold := OrderedMap.get_insert_cases _ hd
    · exact hcount
    · exact h.current other d hold
  · rw [hmanaged, hsteps]
    exact fun job hjob => later_stored (h.past job hjob) hlater

theorem Attempts.staged (h : s.Attempts) (job : Invocation F64) (hmanaged : s'.managed = s.managed)
    (hsubmitted : s'.submitted = s.submitted ++ [job]) (hphase : job.phase = .init) (hattempt : job.correlation.attempt = 0) :
    s'.Attempts := by
  have hsteps : s'.steps = s.steps := steps_init hphase hsubmitted
  refine ⟨hsteps ▸ h.numbered, ?_, ?_, ?_⟩
  · rw [hmanaged, hsteps]
    exact h.current
  · rw [hmanaged, hsteps]
    exact h.past
  · rw [hsubmitted]
    intro other hother
    rcases List.mem_append.1 hother with hother | hother
    · exact h.inits other hother
    · obtain rfl := List.mem_singleton.1 hother
      exact fun _ => hattempt

/-- The next step of the current generation. -/
theorem Attempts.invoked (h : s.Attempts) {id : ComponentId} {c c' : PublishedComponent} {job : Invocation F64}
    (hget : s.managed.get id = some c) (hmanaged : s'.managed = s.managed.insert id c')
    (hsubmitted : s'.submitted = s.submitted ++ [job]) (hphase : job.phase = .step) (hline : job.line = (id, c.generation))
    (hattempt : job.correlation.attempt = c.attempt + 1) (hgeneration : c'.generation = c.generation)
    (hcount : c'.attempt = c.attempt + 1) : s'.Attempts := by
  have hsteps : s'.steps = s.steps ++ [job] := steps_snoc hphase hsubmitted
  have hcurrent := h.current id c hget
  refine ⟨?_, ?_, ?_, ?_⟩
  · rw [hsteps, Lines.numbered_snoc, hline]
    exact ⟨h.numbered, by rw [hattempt, hcurrent]⟩
  · rw [hmanaged, hsteps]
    intro other d hd
    obtain ⟨rfl, rfl⟩ | ⟨hne, hold⟩ := OrderedMap.get_insert_split _ hd
    · rw [hgeneration, Lines.line_snoc hline, List.length_append, hcount, hcurrent]
      rfl
    · rw [Lines.line_snoc_of_ne, h.current other d hold]
      rw [hline]
      exact fun heq => hne (Prod.mk.inj heq).1.symm
  · rw [hmanaged, hsteps]
    intro other hother
    rcases List.mem_append.1 hother with hother | hother
    · refine later_stored (h.past other hother) fun old hold => ?_
      rw [hget] at hold
      obtain rfl := Option.some.inj hold
      exact hgeneration.ge
    · obtain rfl := List.mem_singleton.1 hother
      obtain ⟨hid, hjob⟩ := Prod.mk.inj hline
      rw [hid, hjob]
      exact ⟨c', OrderedMap.get_insert_self _, hgeneration.ge⟩
  · rw [hsubmitted]
    intro other hother hinit
    rcases List.mem_append.1 hother with hother | hother
    · exact h.inits other hother hinit
    · obtain rfl := List.mem_singleton.1 hother
      rw [hphase] at hinit
      cases hinit

/-- A generation that is still to come has no steps. -/
theorem Attempts.unused (h : s.Attempts) {id : ComponentId} {generation : ℕ}
    (hnew : ∀ old, s.managed.get id = some old → old.generation < generation) :
    line Invocation.line (id, generation) s.steps = [] := by
  refine Lines.line_eq_nil fun job hjob heq => ?_
  obtain ⟨old, hold, hgeneration⟩ := h.past job hjob
  obtain ⟨rfl, rfl⟩ := Prod.mk.inj heq
  have := hnew old hold
  omega

theorem Change.attempts (h : s.Change s') (hs : s.Sound) (hi : s.Attempts) : s'.Attempts := by
  have hkept : ∀ (t : ManagedRuntime σ ε) (id : ComponentId) (c c' : PublishedComponent), s.managed.get id = some c →
      t.managed = s.managed.insert id c' → t.submitted = s.submitted → c'.generation = c.generation → c'.attempt = c.attempt →
      t.Attempts := by
    intro t id c c' hget hmanaged hsubmitted hgeneration hattempt
    refine hi.stored hmanaged hsubmitted (by rw [hattempt, hgeneration, hi.current id c hget]) fun old hold => ?_
    rw [hget] at hold
    obtain rfl := Option.some.inj hold
    exact hgeneration.ge
  cases h with
  | aside h => exact hi.same h.managed h.submitted
  | installed => exact hi.same rfl rfl
  | @staging definition replaces generation revision now =>
    exact hi.staged (ManagedInstance.stagingJob definition
      ⟨s.componentRuntime, definition.manifest.id, generation, 0, revision⟩ now) rfl rfl rfl rfl
  | dropped => exact hi.same rfl rfl
  | retained => exact hi.same rfl rfl
  | forgotten => exact hi.same rfl rfl
  | created pending fresh valid described window =>
    have hfresh := (hs.staged _ pending).1.fresh fresh
    have hnone : ∀ old, s.managed.get _ = some old → False := fun old hold => by
      rw [hfresh] at hold
      cases hold
    exact hi.stored rfl rfl (congrArg List.length (hi.unused fun old hold => (hnone old hold).elim)).symm fun old hold =>
      (hnone old hold).elim
  | @replaced id old definition generation result descriptor now isOpen hget own keeps next =>
    obtain ⟨hsum, -⟩ := checkedAdd_eq_some.1 next
    have hlater : ∀ old, s.managed.get id = some old → old.generation < generation := fun old hold => by
      rw [hget] at hold
      obtain rfl := Option.some.inj hold
      omega
    exact hi.stored rfl rfl (congrArg List.length (hi.unused hlater)).symm fun old hold => (hlater old hold).le
  | failing hget seen unavailable => exact hkept _ _ _ _ hget rfl rfl rfl rfl
  | invoked hget live idle isOpen captured built port clock =>
    obtain ⟨-, -, hcorrelation, hphase, -⟩ := ManagedInstance.nextJob_ok built
    have hown := hs.keyed _ _ hget
    exact hi.invoked hget rfl rfl hphase (by rw [Invocation.line, hcorrelation, hown]) (by rw [hcorrelation]) rfl
      (by show _ = _; rw [ManagedInstance.awaiting, hcorrelation])
  | committed hget decided publishes clock =>
    obtain ⟨result, -, -, -, -, -, -, -, hpublished⟩ := committed_ok decided publishes
    exact hkept _ _ _ _ hget rfl rfl (by rw [hpublished]; rfl) (by rw [hpublished]; rfl)
  | quiesced => exact hi.same rfl rfl

/-! ### Times -/

/-- Jobs are handed over, and steps committed, in the order of the clock. -/
structure Ordered (s : ManagedRuntime σ ε) : Prop where
  submitted : s.submitted.Pairwise fun job later => job.time ≤ later.time
  committed : s.committed.Pairwise fun entry later => entry.time ≤ later.time
  jobs : ∀ job ∈ s.submitted, job.time ≤ s.runtime.outputTime
  entries : ∀ entry ∈ s.committed, entry.time ≤ s.runtime.outputTime

theorem Ordered.later (h : s.Ordered) (hclock : s.runtime.outputTime ≤ s'.runtime.outputTime) (hsubmitted : s'.submitted = s.submitted)
    (hcommitted : s'.committed = s.committed) : s'.Ordered := by
  refine ⟨hsubmitted ▸ h.submitted, hcommitted ▸ h.committed, ?_, ?_⟩
  · rw [hsubmitted]
    exact fun job hjob => (h.jobs job hjob).trans hclock
  · rw [hcommitted]
    exact fun entry hentry => (h.entries entry hentry).trans hclock

/-- A list whose every element is at most a bound, with one more at the bound. -/
theorem pairwise_le_snoc {α : Type} {f : α → ℕ} {xs : List α} {x : α} (h : xs.Pairwise fun a b => f a ≤ f b)
    (hx : ∀ a ∈ xs, f a ≤ f x) : (xs ++ [x]).Pairwise fun a b => f a ≤ f b := by
  refine List.pairwise_append.2 ⟨h, List.pairwise_singleton _ _, fun a ha b hb => ?_⟩
  obtain rfl := List.mem_singleton.1 hb
  exact hx a ha

theorem Ordered.submitting (h : s.Ordered) (job : Invocation F64) (hclock : s.runtime.outputTime ≤ s'.runtime.outputTime)
    (htime : job.time = s'.runtime.outputTime) (hsubmitted : s'.submitted = s.submitted ++ [job])
    (hcommitted : s'.committed = s.committed) : s'.Ordered := by
  refine ⟨?_, hcommitted ▸ h.committed, ?_, ?_⟩
  · rw [hsubmitted]
    exact pairwise_le_snoc h.submitted fun other hother => ((h.jobs other hother).trans hclock).trans htime.ge
  · rw [hsubmitted]
    intro other hother
    rcases List.mem_append.1 hother with hother | hother
    · exact (h.jobs other hother).trans hclock
    · obtain rfl := List.mem_singleton.1 hother
      exact htime.le
  · rw [hcommitted]
    exact fun entry hentry => (h.entries entry hentry).trans hclock

theorem Change.ordered (h : s.Change s') (hi : s.Ordered) : s'.Ordered := by
  cases h with
  | aside h => exact hi.later h.onward.outputTime h.submitted h.committed
  | @staging definition replaces generation revision now prepareOnly executor runtime isOpen idle valid identity port onward clock =>
    exact hi.submitting (ManagedInstance.stagingJob definition
      ⟨s.componentRuntime, definition.manifest.id, generation, 0, revision⟩ now) onward.outputTime clock.symm rfl rfl
  | @invoked id c input now job executor hget live idle isOpen captured built port clock =>
    obtain ⟨-, -, -, -, -, -, htime, -⟩ := ManagedInstance.nextJob_ok built
    exact hi.submitting job le_rfl (htime.trans clock.symm) rfl rfl
  | @committed c completion value sourceTime next published sample now hget decided publishes clock =>
    have hpast : ∀ entry ∈ s.committed, entry.time ≤ now := fun entry hentry => clock ▸ hi.entries entry hentry
    refine ⟨hi.submitted, pairwise_le_snoc hi.committed hpast, hi.jobs, fun entry hentry => ?_⟩
    rcases List.mem_append.1 hentry with hentry | hentry
    · exact hi.entries entry hentry
    · obtain rfl := List.mem_singleton.1 hentry
      exact clock.ge
  | _ => exact hi.later le_rfl rfl rfl

/-! ### Answers -/

/-- The job that a committed step answers. -/
structure Answers (job : Invocation F64) (entry : CommittedStep) : Prop where
  correlation : job.correlation = entry.correlation
  definition : job.definition = entry.definition
  state : job.state = entry.state
  input : job.input = entry.input
  time : job.time ≤ entry.time

/-- The job that a component awaits. -/
structure Awaited (id : ComponentId) (c : PublishedComponent) (job : Invocation F64) : Prop where
  pending : c.pending = some job.correlation
  definition : job.definition = c.definition
  state : job.state = c.committed
  input : job.input = c.pendingInput
  time : c.pendingAt = some job.time
  component : job.correlation.component = id
  generation : job.correlation.generation = c.generation
  attempt : job.correlation.attempt = c.attempt

/-- What is awaited was asked for and not answered yet, and what was answered was asked for. -/
structure Answered (s : ManagedRuntime σ ε) : Prop where
  awaited : ∀ id c, s.managed.get id = some c → c.pending ≠ none → ∃ job ∈ s.steps, Awaited id c job ∧
    ∀ entry ∈ s.committed, entry.correlation ≠ job.correlation
  asked : ∀ entry ∈ s.committed, ∃ job ∈ s.steps, Answers job entry
  once : (s.committed.map CommittedStep.correlation).Nodup

theorem Answered.same (h : s.Answered) (hmanaged : s'.managed = s.managed) (hsteps : s'.steps = s.steps)
    (hcommitted : s'.committed = s.committed) : s'.Answered := by
  refine ⟨?_, ?_, hcommitted ▸ h.once⟩
  · rw [hmanaged, hsteps, hcommitted]
    exact h.awaited
  · rw [hsteps, hcommitted]
    exact h.asked

/-- A component that awaits nothing takes its place. -/
theorem Answered.stored (h : s.Answered) {id : ComponentId} {c : PublishedComponent} (hmanaged : s'.managed = s.managed.insert id c)
    (hsteps : s'.steps = s.steps) (hcommitted : s'.committed = s.committed) (hidle : c.pending = none) : s'.Answered := by
  refine ⟨?_, ?_, hcommitted ▸ h.once⟩
  · rw [hmanaged, hsteps, hcommitted]
    intro other d hd hpending
    obtain ⟨rfl, rfl⟩ | ⟨-, hold⟩ := OrderedMap.get_insert_split _ hd
    · exact absurd hidle hpending
    · exact h.awaited other d hold hpending
  · rw [hsteps, hcommitted]
    exact h.asked

theorem Answered.invoked (h : s.Answered) (hattempts : s.Attempts) {id : ComponentId} {c c' : PublishedComponent}
    {job : Invocation F64} (hget : s.managed.get id = some c) (hmanaged : s'.managed = s.managed.insert id c')
    (hsteps : s'.steps = s.steps ++ [job]) (hcommitted : s'.committed = s.committed) (hawaited : Awaited id c' job)
    (hgeneration : c'.generation = c.generation) (hattempt : c'.attempt = c.attempt + 1) : s'.Answered := by
  refine ⟨?_, ?_, hcommitted ▸ h.once⟩
  · rw [hmanaged, hsteps, hcommitted]
    intro other d hd hpending
    obtain ⟨rfl, rfl⟩ | ⟨-, hold⟩ := OrderedMap.get_insert_split _ hd
    · refine ⟨job, by simp, hawaited, fun entry hentry heq => ?_⟩
      -- the job of that entry has a smaller number in the same line
      obtain ⟨earlier, hearlier, hanswers⟩ := h.asked entry hentry
      have hsame : earlier.correlation = job.correlation := hanswers.correlation.trans heq
      have hlt := hattempts.numbered.number_lt hearlier
      have hline : earlier.line = (other, c.generation) := by
        rw [Invocation.line, hsame, hawaited.component, hawaited.generation, hgeneration]
      rw [hline, hsame, hawaited.attempt, hattempt, ← hattempts.current other c hget] at hlt
      omega
    · obtain ⟨waited, hwaited, hrest⟩ := h.awaited other d hold hpending
      exact ⟨waited, List.mem_append_left _ hwaited, hrest⟩
  · rw [hsteps, hcommitted]
    intro entry hentry
    obtain ⟨asked, hasked, hanswers⟩ := h.asked entry hentry
    exact ⟨asked, List.mem_append_left _ hasked, hanswers⟩

theorem Answered.committed (h : s.Answered) {id : ComponentId} {c c' : PublishedComponent} {entry : CommittedStep}
    (hget : s.managed.get id = some c) (hpending : c.pending = some entry.correlation) (hdefinition : entry.definition = c.definition)
    (hstate : entry.state = c.committed) (hinput : entry.input = c.pendingInput) (htime : c.pendingAt.getD 0 ≤ entry.time)
    (hmanaged : s'.managed = s.managed.insert id c') (hidle : c'.pending = none) (hsteps : s'.steps = s.steps)
    (hcommitted : s'.committed = s.committed ++ [entry]) : s'.Answered := by
  obtain ⟨job, hjob, hawaited, hnew⟩ := h.awaited id c hget (by rw [hpending]; simp)
  have hcorrelation : job.correlation = entry.correlation := Option.some.inj (hawaited.pending.symm.trans hpending)
  rw [hcorrelation] at hnew
  refine ⟨?_, ?_, ?_⟩
  · rw [hmanaged, hsteps, hcommitted]
    intro other d hd hawaits
    obtain ⟨rfl, rfl⟩ | ⟨hne, hold⟩ := OrderedMap.get_insert_split _ hd
    · exact absurd hidle hawaits
    · obtain ⟨waited, hwaited, hother, hfree⟩ := h.awaited other d hold hawaits
      refine ⟨waited, hwaited, hother, fun answered hanswered heq => ?_⟩
      rcases List.mem_append.1 hanswered with hanswered | hanswered
      · exact hfree answered hanswered heq
      · obtain rfl := List.mem_singleton.1 hanswered
        refine hne ?_
        rw [← hother.component, ← heq, ← hcorrelation, hawaited.component]
  · rw [hsteps, hcommitted]
    intro answered hanswered
    rcases List.mem_append.1 hanswered with hanswered | hanswered
    · exact h.asked answered hanswered
    · obtain rfl := List.mem_singleton.1 hanswered
      refine ⟨job, hjob, hcorrelation, hawaited.definition.trans hdefinition.symm, hawaited.state.trans hstate.symm,
        hawaited.input.trans hinput.symm, ?_⟩
      rwa [hawaited.time] at htime
  · rw [hcommitted, List.map_append]
    refine List.nodup_append.2 ⟨h.once, List.nodup_singleton _, fun a ha b hb => ?_⟩
    obtain ⟨answered, hanswered, rfl⟩ := List.mem_map.1 ha
    obtain rfl := List.mem_singleton.1 hb
    exact hnew answered hanswered

theorem Change.answered (h : s.Change s') (hs : s.Sound) (hattempts : s.Attempts) (hi : s.Answered) : s'.Answered := by
  cases h with
  | aside h => exact hi.same h.managed (by rw [steps, h.submitted, steps]) h.committed
  | staging => exact hi.same rfl (steps_init rfl rfl) rfl
  | created => exact hi.stored rfl rfl rfl rfl
  | replaced => exact hi.stored rfl rfl rfl rfl
  | failing => exact hi.stored rfl rfl rfl rfl
  | @invoked id c input now job executor hget live idle isOpen captured built port clock =>
    obtain ⟨-, -, hcorrelation, hphase, hdefinition, hstate, -, hinput⟩ := ManagedInstance.nextJob_ok built
    have hown := hs.keyed _ _ hget
    have hattempt : job.correlation.attempt = c.attempt + 1 := by rw [hcorrelation]
    exact hi.invoked hattempts hget rfl (steps_snoc hphase rfl) rfl
      ⟨rfl, hdefinition, hstate, rfl, rfl, by rw [hcorrelation, hown], by rw [hcorrelation]; rfl, rfl⟩ rfl hattempt
  | committed hget decided publishes clock =>
    obtain ⟨result, -, hawaits, htime, -, -, -, -, hpublished⟩ := committed_ok decided publishes
    exact hi.committed hget hawaits.pending rfl rfl rfl htime.scheduled rfl (by rw [hpublished]; rfl) rfl rfl
  | _ => exact hi.same rfl rfl rfl

/-! ### Runs -/

theorem empty_attempts : (empty σ ε).Attempts :=
  ⟨Lines.numbered_nil, fun _ _ hc => (by cases hc), fun _ hjob => (by cases hjob), fun _ hjob => (by cases hjob)⟩

theorem run_attempts (M : Platform σ ε) (ops : List (Op σ ε)) : (run M ops).Attempts :=
  run_keeps (fun _ _ hs hi hchange => hchange.attempts hs hi) empty_attempts M ops

theorem run_ordered (M : Platform σ ε) (ops : List (Op σ ε)) : (run M ops).Ordered :=
  run_keeps (fun _ _ _ hi hchange => hchange.ordered hi)
    ⟨.nil, .nil, fun _ hjob => (by cases hjob), fun _ hentry => (by cases hentry)⟩ M ops

theorem run_answered (M : Platform σ ε) (ops : List (Op σ ε)) : (run M ops).Answered :=
  (run_keeps (I := fun s => s.Attempts ∧ s.Answered)
    (fun _ _ hs hi hchange => ⟨hchange.attempts hs hi.1, hchange.answered hs hi.1 hi.2⟩)
    ⟨empty_attempts, fun _ _ hc => (by cases hc), fun _ hentry => (by cases hentry), .nil⟩ M ops).2

/-- Every committed step answers exactly one of the jobs, with the definition, state and input that it was asked with and no
earlier than it was asked; no job is answered twice; and steps are committed in the order of the clock. -/
theorem committed_answers (M : Platform σ ε) (ops : List (Op σ ε)) :
    (∀ entry ∈ (run M ops).committed, ∃ job ∈ (run M ops).steps, Answers job entry ∧
        ∀ other ∈ (run M ops).steps, other.correlation = entry.correlation → other = job) ∧
      ((run M ops).committed.map CommittedStep.correlation).Nodup ∧
      (run M ops).committed.Pairwise fun entry later => entry.time ≤ later.time := by
  have hanswered := run_answered M ops
  refine ⟨fun entry hentry => ?_, hanswered.once, (run_ordered M ops).committed⟩
  obtain ⟨job, hjob, hanswers⟩ := hanswered.asked entry hentry
  refine ⟨job, hjob, hanswers, fun other hother heq => ?_⟩
  exact List.inj_on_of_nodup_map (run_attempts M ops).apart hother hjob (heq.trans hanswers.correlation.symm)

end ManagedRuntime
end LabRuntime
