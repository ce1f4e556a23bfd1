import LabRuntime.Managed.Changes

/-! The commands on managed components as paths of changes. -/

namespace LabRuntime.ManagedRuntime

open Procedure (Moves)

variable {σ ε : Type} {s s' s'' : ManagedRuntime σ ε}

/-! ### Steps aside -/

/-- A step aside that leaves the clock alone too. -/
structure Still (s s' : ManagedRuntime σ ε) : Prop where
  aside : s.Aside s'
  clock : s'.runtime.outputTime = s.runtime.outputTime

instance : Std.Refl (Still (σ := σ) (ε := ε)) := ⟨fun s => ⟨.refl s, rfl⟩⟩

instance : IsTrans (ManagedRuntime σ ε) Still := ⟨fun _ _ _ h h' => ⟨h.aside.trans h'.aside, h'.clock.trans h.clock⟩⟩

/-- Once the clock shows a time, it still does afterwards, and the components are quiesced if they were. -/
structure Timely (now : ℕ) (s s' : ManagedRuntime σ ε) : Prop where
  clock : s.runtime.outputTime = now → s'.runtime.outputTime = now
  managedQuiesced : s'.managedQuiesced = s.managedQuiesced

instance (now : ℕ) : Std.Refl (Timely (σ := σ) (ε := ε) now) := ⟨fun _ => ⟨fun h => h, rfl⟩⟩

instance (now : ℕ) : IsTrans (ManagedRuntime σ ε) (Timely now) := ⟨fun _ _ _ h h' =>
  ⟨fun htime => h'.clock (h.clock htime), h'.managedQuiesced.trans h.managedQuiesced⟩⟩

/-- From a state whose clock shows the time: a path, and the clock still shows it. -/
def EvolvesAt (now : ℕ) (s s' : ManagedRuntime σ ε) : Prop :=
  s.runtime.outputTime = now → s.Evolves s' ∧ s'.runtime.outputTime = now

instance (now : ℕ) : Std.Refl (EvolvesAt (σ := σ) (ε := ε) now) := ⟨fun s htime => ⟨refl_of Evolves s, htime⟩⟩

instance (now : ℕ) : IsTrans (ManagedRuntime σ ε) (EvolvesAt now) := ⟨fun _ _ _ h h' htime =>
  ⟨trans_of Evolves (h htime).1 (h' (h htime).2).1, (h' (h htime).2).2⟩⟩

theorem Still.at (h : s.Still s') {now : ℕ} : s.EvolvesAt now s' := fun htime => ⟨h.aside.evolves, h.clock.trans htime⟩

theorem Still.timely (h : s.Still s') {now : ℕ} : s.Timely now s' := ⟨fun htime => h.clock.trans htime, h.aside.managedQuiesced⟩

theorem moves_at {α : Type} {x : ManagedStep σ ε α} (h : Moves Still x) (now : ℕ) : Moves (EvolvesAt now) x :=
  h.mono fun _ _ h => h.at

theorem moves_timely {α : Type} {x : ManagedStep σ ε α} (h : Moves Still x) (now : ℕ) : Moves (Timely now) x :=
  h.mono fun _ _ h => h.timely

theorem moves_evolves {α : Type} {x : ManagedStep σ ε α} (h : Moves Aside x) : Moves Evolves x := h.mono fun _ _ h => h.evolves

/-- The rest of the owner went on. -/
theorem aside_runtime {runtime : Runtime σ} (h : s.runtime.Onward runtime) : s.Aside { s with runtime := runtime } :=
  ⟨rfl, rfl, rfl, rfl, rfl, rfl, rfl, rfl, h⟩

theorem still_runtime {runtime : Runtime σ} (h : s.runtime.SameShell runtime) : s.Still { s with runtime := runtime } :=
  ⟨aside_runtime h.onward, congrArg Shell.outputTime h⟩

theorem core_run {α : Type} (x : Step σ α) (s : ManagedRuntime σ ε) :
    (core x).run s = ((x.run s.runtime).1.mapError .core, { s with runtime := (x.run s.runtime).2 }) := rfl

theorem core_aside {α : Type} {x : Step σ α} (h : Moves Runtime.Onward x) : Moves Aside (core x : ManagedStep σ ε α) :=
  fun s => aside_runtime (h s.runtime)

theorem core_still {α : Type} {x : Step σ α} (h : Moves Runtime.SameShell x) : Moves Still (core x : ManagedStep σ ε α) :=
  fun s => still_runtime (h s.runtime)

/-- A call on the rest of the owner that ended. -/
theorem core_ok {α : Type} {x : Step σ α} {a : α} (h : (core x).run s = (.ok a, s')) :
    ∃ runtime, x.run s.runtime = (.ok a, runtime) ∧ s' = { s with runtime := runtime } := by
  rw [core_run] at h
  rcases hrun : x.run s.runtime with ⟨error | b, runtime⟩
  · rw [hrun] at h
    cases h
  · rw [hrun] at h
    obtain ⟨hb, hs⟩ := Prod.mk.inj h
    obtain rfl := Except.ok.inj hb
    exact ⟨runtime, rfl, hs.symm⟩

theorem capture_still (fact : ManagedFact) : Moves Still (capture fact : ManagedStep σ ε PUnit) := by
  intro s
  have haside : s.Aside ((capture fact).run s).2 := ⟨rfl, rfl, rfl, rfl, rfl, rfl, rfl, rfl, Runtime.SameShell.onward rfl⟩
  exact ⟨haside, rfl⟩

/-- Another executor in the place of the one that is there. -/
theorem still_executor {executor : Option ε} (h : executor.isSome = s.executor.isSome) : s.Still { s with executor := executor } :=
  ⟨⟨rfl, rfl, rfl, rfl, rfl, rfl, rfl, h, .refl _⟩, rfl⟩

section Port

variable (A : ComponentExecutor F64 ε)

theorem cancel_still (correlation : Correlation) : Moves Still (cancel A correlation : ManagedStep σ ε PUnit) :=
  .update fun s => still_executor (by simp)

theorem cancelPending_still (pending : Option Correlation) : Moves Still (cancelPending A pending : ManagedStep σ ε PUnit) := by
  cases pending with
  | none => exact .pure PUnit.unit
  | some correlation => exact cancel_still A correlation

theorem cancelPending_ok (pending : Option Correlation) (s : ManagedRuntime σ ε) :
    ∃ executor, executor.isSome = s.executor.isSome ∧
      (cancelPending A pending).run s = (.ok ⟨⟩, { s with executor := executor }) := by
  cases pending with
  | none => exact ⟨s.executor, rfl, rfl⟩
  | some correlation => exact ⟨s.executor.map (A.tryCancel correlation), by simp, rfl⟩

theorem tryExpire_still (correlation : Correlation) : Moves Still (tryExpire A correlation : ManagedStep σ ε Bool) := by
  intro s
  unfold tryExpire
  rw [Procedure.run_get_bind]
  cases hport : s.executor with
  | none => exact refl_of Still s
  | some executor => exact still_executor (by simp [hport])

theorem tryPoll_still : Moves Still (tryPoll A : ManagedStep σ ε (Option (ComponentCompletion F64))) := by
  intro s
  unfold tryPoll
  rw [Procedure.run_get_bind]
  cases hport : s.executor with
  | none => exact refl_of Still s
  | some executor => exact still_executor (by simp [hport])

/-- A job is refused, or handed to the workers. -/
theorem trySubmit_cases (job : Invocation F64) (s : ManagedRuntime σ ε) :
    (∃ error t, s.Still t ∧ (trySubmit A job).run s = (.error error, t)) ∨
      ∃ executor, s.executor.isSome = true ∧
        (trySubmit A job).run s = (.ok (), { s with executor := some executor, submitted := s.submitted ++ [job] }) := by
  unfold trySubmit
  rw [Procedure.run_get_bind]
  cases hport : s.executor with
  | none => exact .inl ⟨_, s, refl_of Still s, rfl⟩
  | some executor =>
    dsimp only
    rw [Procedure.run_modify_bind]
    cases (A.trySubmit job executor).1 with
    | error error => exact .inl ⟨_, _, still_executor (by simp [hport]), rfl⟩
    | ok _ => exact .inr ⟨_, rfl, rfl⟩

/-! ### Failure -/

theorem store_run (id : ComponentId) (c : PublishedComponent) (s : ManagedRuntime σ ε) :
    (store id c).run s = (.ok ⟨⟩, s.withManaged (s.managed.insert id c)) := rfl

theorem failOne_at (now : ℕ) (id : ComponentId) : Moves (EvolvesAt now) (failOne A now id : ManagedStep σ ε Unit) := by
  intro s
  unfold failOne
  rw [Procedure.run_get_bind]
  cases hget : s.managed.get id with
  | none => exact refl_of (EvolvesAt now) s
  | some c =>
    dsimp only
    obtain ⟨executor, hport, hrun⟩ := cancelPending_ok A c.pending s
    rw [Procedure.run_bind_ok hrun]
    refine trans_of (EvolvesAt now) (still_executor hport).at ?_
    have hstored : EvolvesAt now { s with executor := executor } ((store id (c.failing now)).run { s with executor := executor }).2 :=
      fun htime => ⟨(Change.failing (s := { s with executor := executor }) hget (.inl htime) (.inl rfl)).evolves, htime⟩
    refine Moves.bind_from hstored fun _ => moves_at ?_ now
    cases (c.failing now).signal.latest with
    | none => exact .pure ()
    | some sample =>
      dsimp only
      split_ifs
      · exact .bind (capture_still _) fun _ => .pure ()
      · exact .pure ()

theorem failComponent_at (id : ComponentId) (now : ℕ) : Moves (EvolvesAt now) (failComponent A id now : ManagedStep σ ε Unit) := by
  refine .bind .get fun s => ?_
  cases s.managed.get id with
  | none => exact .pure ()
  | some c =>
    exact .bind (failOne_at A now id) fun _ => .bind .get fun s => .bind (.forEach fun other _ => failOne_at A now other) fun _ =>
      .bind .get fun s => .forEach fun controller _ => moves_at (core_still (Runtime.failDependent_shell controller now)) now

/-! ### Invocation -/

theorem invokeWith_evolves {id : ComponentId} {c : PublishedComponent} {input : Option (CapturedInput F64)} {now : ℕ}
    (hget : s.managed.get id = some c) (live : c.state ≠ .failed) (idle : c.pending = none) (isOpen : s.managedQuiesced = false)
    (captured : s.captureComponentInput c.definition.manifest now = .ok input) (clock : s.runtime.outputTime = now) :
    s.Evolves ((invokeWith A id c input now).run s).2 := by
  unfold invokeWith
  rw [Procedure.run_get_bind]
  cases hjob : c.nextJob s.componentRuntime now input with
  | error error => exact refl_of Evolves s
  | ok job =>
    obtain ⟨error, t, hstill, hrun⟩ | ⟨executor, hport, hrun⟩ := trySubmit_cases A job s
    · show s.Evolves ((trySubmit A job >>= fun _ => _).run s).2
      rw [Procedure.run_bind_error hrun]
      exact hstill.aside.evolves
    · show s.Evolves ((trySubmit A job >>= fun _ => _).run s).2
      rw [Procedure.run_bind_ok hrun]
      exact Change.evolves (.invoked hget live idle isOpen captured hjob hport clock)

theorem invokeComponent_evolves (id : ComponentId) (now : ℕ) :
    Moves Evolves (invokeComponent A id now : ManagedStep σ ε Correlation) := by
  intro s
  have hclock := core_aside (ε := ε) (Runtime.checkOutputTime_onward (σ := σ) now) s
  refine Moves.bind_at hclock.evolves fun u s₁ hrun => ?_
  obtain ⟨runtime, hchecked, rfl⟩ := core_ok hrun
  have htime : runtime.outputTime = now := Runtime.checkOutputTime_ok hchecked
  clear hclock hrun
  generalize hs₁ : ({ s with runtime := runtime } : ManagedRuntime σ ε) = s₁
  have htime₁ : s₁.runtime.outputTime = now := by rw [← hs₁]; exact htime
  rw [Procedure.run_get_bind]
  refine Moves.guard_at fun hopen => ?_
  cases hget : s₁.managed.get id with
  | none => exact refl_of Evolves s₁
  | some c =>
    dsimp only
    split_ifs with hfailed hbusy
    · exact refl_of Evolves s₁
    · exact refl_of Evolves s₁
    · cases hcaptured : s₁.captureComponentInput c.definition.manifest now with
      | error error =>
        exact Moves.bind_from (failComponent_at A id now s₁ htime₁).1 fun _ => .stop _
      | ok input =>
        exact invokeWith_evolves A hget hfailed (by simpa using hbusy) (by simpa using hopen) hcaptured htime₁

/-! ### Steps that are committed -/

theorem commitStep_at (completion : ComponentCompletion F64) (now : ℕ) :
    Moves (EvolvesAt now) (commitStep A completion now : ManagedStep σ ε Unit) := by
  intro s
  unfold commitStep
  rw [Procedure.run_get_bind]
  dsimp only
  cases hget : s.managed.get completion.correlation.component with
  | none => exact refl_of (EvolvesAt now) s
  | some c =>
    dsimp only
    cases hdecided : c.decideStep s.componentRuntime completion now
        (fun input => (s.runtime.signal input.signal).bind SignalBuffer.latest) with
    | ignored => exact refl_of (EvolvesAt now) s
    | failed => exact failComponent_at A _ now s
    | committed value sourceTime next =>
      dsimp only
      cases hpublishes : publishStep c next now sourceTime value with
      | error error => exact failComponent_at A _ now s
      | ok result =>
        obtain ⟨published, sample⟩ := result
        dsimp only
        rw [Procedure.run_bind_ok (store_run _ _ s), Procedure.run_modify_bind]
        have hcommitted : EvolvesAt now s _ := fun htime => ⟨(Change.committed hget hdecided hpublishes htime).evolves, htime⟩
        exact trans_of (EvolvesAt now) hcommitted (capture_still _ _).at

end Port

/-! ### Replacement -/

theorem checkReplaced_ok {staged : StagedComponent} {id : ComponentId} {now : ℕ} {old : PublishedComponent}
    (h : s.checkReplaced staged id now = .ok old) :
    s.managed.get id = some old ∧ checkedAdd old.generation 1 = some staged.correlation.generation ∧
      attemptedAfter old now = false ∧
      ∀ other ∈ s.dependents id old.signalId, ∀ c, s.managed.get other = some c → attemptedAfter c now = false := by
  unfold checkReplaced at h
  cases hget : s.managed.get id with
  | none => simp [hget] at h
  | some c =>
    rw [hget] at h
    obtain ⟨_, hold, h⟩ := Checks.bind_ok.1 h
    obtain ⟨_, hdependents, h⟩ := Checks.bind_ok.1 h
    obtain rfl := Checks.pure_ok.1 h
    have hold := Checks.reject_ok.1 hold
    have hdependents := Checks.reject_ok.1 hdependents
    simp only [not_or, not_not, Bool.not_eq_true] at hold
    refine ⟨rfl, hold.1, hold.2.2, fun other hother d hd => ?_⟩
    simp only [List.any_eq_true, not_exists, not_and] at hdependents
    simpa [hd] using hdependents other hother

/-- The sample of a signal that was not attempted later can be invalidated. -/
theorem invalidate_ok {c : PublishedComponent} {now : ℕ} {last : Sample} (hlast : c.signal.latest = some last)
    (hseen : attemptedAfter c now = false) : (c.signal.invalidate now .componentFailure).1 = .ok () := by
  have hle : last.time ≤ now := by
    have hseen : decide (now < last.time) = false := by simpa [attemptedAfter, hlast] using hseen
    simpa using hseen
  unfold SignalBuffer.invalidate
  rw [hlast]
  dsimp only
  rw [if_neg (not_lt.2 hle)]
  split_ifs with heq
  · rfl
  · have hbefore : c.signal.Before now := by
      intro sample hsample
      rw [hlast] at hsample
      obtain rfl := Option.some.inj hsample
      omega
    obtain ⟨b, hpush, -⟩ := SignalBuffer.push_of_before
      (show (Sample.unavailable c.signal.id last.unit now .componentFailure).signal = c.signal.id from rfl) hbefore
    simp only [hpush]

theorem failedSignal_some {c : PublishedComponent} {now : ℕ} {last : Sample} (hlast : c.signal.latest = some last) :
    c.failedSignal now = (c.signal.invalidate now .componentFailure).2 := by
  unfold PublishedComponent.failedSignal
  rw [hlast]

/-- What stopping dependents leaves alone: the other components and the clock. -/
structure Spares (ids : List ComponentId) (s s' : ManagedRuntime σ ε) : Prop where
  path : s.Evolves s'
  others : ∀ id, id ∉ ids → s'.managed.get id = s.managed.get id
  clock : s'.runtime.outputTime = s.runtime.outputTime

theorem Spares.trans {ids ids' : List ComponentId} (h : s.Spares ids s') (h' : s'.Spares ids' s'') : s.Spares (ids ++ ids') s'' where
  path := trans_of Evolves h.path h'.path
  others id hid := by
    rw [List.mem_append, not_or] at hid
    exact (h'.others id hid.2).trans (h.others id hid.1)
  clock := h'.clock.trans h.clock

theorem Still.spares (h : s.Still s') (ids : List ComponentId) : s.Spares ids s' :=
  ⟨h.aside.evolves, fun id _ => by rw [h.aside.managed], h.clock⟩

theorem failReplacedDependent_spares (A : ComponentExecutor F64 ε) {now : ℕ} {id : ComponentId}
    (hseen : ∀ c, s.managed.get id = some c → attemptedAfter c now = false) :
    s.Spares [id] ((failReplacedDependent A now id).run s).2 := by
  unfold failReplacedDependent
  rw [Procedure.run_get_bind]
  cases hget : s.managed.get id with
  | none => exact (refl_of Still s).spares _
  | some c =>
    dsimp only
    obtain ⟨executor, hport, hrun⟩ := cancelPending_ok A c.pending s
    rw [Procedure.run_bind_ok hrun]
    have hstill : s.Still { s with executor := executor } := still_executor hport
    have hstored : ∀ signal, (signal = c.failedSignal now ∨ c.signal.latest = none ∧ signal = c.signal) →
        s.Spares [id] (withManaged { s with executor := executor }
          (s.managed.insert id { c with toManagedInstance := c.fail, signal := signal })) := by
      intro signal hsignal
      refine ⟨trans_of Evolves hstill.aside.evolves
        (Change.failing (s := { s with executor := executor }) hget (.inr (hseen c hget)) hsignal).evolves, fun other hother => ?_, rfl⟩
      exact OrderedMap.get_insert_of_ne _ (by simpa using hother)
    cases hlast : c.signal.latest with
    | none => exact hstored c.signal (.inr ⟨hlast, rfl⟩)
    | some last =>
      dsimp only
      rw [Procedure.run_bind_ok (store_run _ _ _)]
      have hinvalidated := invalidate_ok hlast (hseen c hget)
      rw [hinvalidated]
      exact hstored _ (.inl (failedSignal_some hlast).symm)

theorem failReplacedDependents_spares (A : ComponentExecutor F64 ε) (now : ℕ) {ids : List ComponentId} (hnodup : ids.Nodup)
    (hseen : ∀ id ∈ ids, ∀ c, s.managed.get id = some c → attemptedAfter c now = false) :
    s.Spares ids ((failReplacedDependents A now ids).run s).2 := by
  induction ids generalizing s with
  | nil => exact (refl_of Still s).spares _
  | cons id ids ih =>
    obtain ⟨hnew, hnodup⟩ := List.nodup_cons.1 hnodup
    have hfirst := failReplacedDependent_spares A (hseen id List.mem_cons_self)
    unfold failReplacedDependents
    obtain ⟨error, t, hrun, heq⟩ | ⟨facts, t, hrun, heq⟩ := Procedure.bind_cases (failReplacedDependent A now id)
      (fun facts => failReplacedDependents A now ids >>= fun more => pure (facts ++ more)) s
    · rw [heq]
      rw [hrun] at hfirst
      exact ⟨hfirst.path, fun other hother => hfirst.others other (by simp_all), hfirst.clock⟩
    · rw [heq, Procedure.run_bind_pure]
      rw [hrun] at hfirst
      have hrest : t.Spares ids ((failReplacedDependents A now ids).run t).2 := by
        refine ih hnodup fun other hother c hc => hseen other (List.mem_cons_of_mem _ hother) c ?_
        have hne : other ∉ [id] := by
          rintro hmem
          obtain rfl := List.mem_singleton.1 hmem
          exact hnew hother
        rw [← hfirst.others other hne]
        exact hc
      exact hfirst.trans hrest

/-- Going on with the rest of the owner, and where the call ended, from the same components. -/
theorem core_bind {α β : Type} {x : Step σ α} {f : α → ManagedStep σ ε β} (hx : Moves Runtime.Onward x)
    (hf : ∀ a runtime, s.runtime.Onward runtime → x.run s.runtime = (.ok a, runtime) →
      Evolves { s with runtime := runtime } ((f a).run { s with runtime := runtime }).2) :
    s.Evolves ((core x >>= f).run s).2 := by
  refine Moves.bind_at (core_aside hx s).evolves fun a s₁ hrun => ?_
  obtain ⟨runtime, hended, rfl⟩ := core_ok hrun
  have honward := hx s.runtime
  rw [hended] at honward
  exact hf a runtime honward hended

/-- The parts of a replacement before its component is stored. -/
theorem quiesceDependents_spares (A : ComponentExecutor F64 ε) (staged : StagedComponent) (id : ComponentId) (now : ℕ) :
    s.Evolves ((quiesceDependents A staged id now).run s).2 ∧ ∀ facts t, (quiesceDependents A staged id now).run s = (.ok facts, t) →
      ∃ old, s.managed.get id = some old ∧ t.managed.get id = some old ∧ attemptedAfter old now = false ∧
        checkedAdd old.generation 1 = some staged.correlation.generation := by
  unfold quiesceDependents
  rw [Procedure.run_get_bind]
  cases hchecked : s.checkReplaced staged id now with
  | error error => exact ⟨refl_of Evolves s, fun facts t h => by cases h⟩
  | ok old =>
    obtain ⟨hget, hgeneration, hseen, hdependents⟩ := checkReplaced_ok hchecked
    rw [Procedure.run_lift_ok_bind]
    dsimp only
    have hpause : Moves Aside (Procedure.forEach (s.readers (old.signalId :: s.signalsOf (s.dependents id old.signalId)))
        fun controller => core (Runtime.pauseController controller now) : ManagedStep σ ε Unit) :=
      .forEach fun controller _ => core_aside (Runtime.pauseController_onward controller now)
    have hnodup : (s.dependents id old.signalId).Nodup := by
      refine List.Nodup.sublist ?_ s.managed.keys_nodup
      exact List.filter_sublist.map Prod.fst
    have hself : id ∉ s.dependents id old.signalId := by simp [dependents]
    have hrest : ∀ t, s.Aside t → t.Spares (s.dependents id old.signalId) ((do
        cancelPending A old.pending
        failReplacedDependents A now (s.dependents id old.signalId) : ManagedStep σ ε _).run t).2 := by
      intro t ht
      obtain ⟨executor, hport, hrun⟩ := cancelPending_ok A old.pending t
      rw [Procedure.run_bind_ok hrun]
      have hstill : t.Still { t with executor := executor } := still_executor hport
      have hfailed : Spares (s.dependents id old.signalId) { t with executor := executor } _ :=
        failReplacedDependents_spares A now hnodup fun other hother c hc =>
          hdependents other hother c (by rwa [← ht.managed])
      exact ⟨trans_of Evolves hstill.aside.evolves hfailed.path, hfailed.others, hfailed.clock⟩
    refine ⟨Moves.bind_at (hpause s).evolves fun _ t ht => (hrest t ?_).path, fun facts t h => ?_⟩
    · have haside := hpause s
      rwa [ht] at haside
    · obtain ⟨_, t₁, hpaused, hfailed⟩ := Procedure.bind_ok.1 h
      have haside := hpause s
      rw [hpaused] at haside
      have hspared := (hrest t₁ haside).others id hself
      rw [hfailed] at hspared
      exact ⟨old, hget, by rw [hspared, haside.managed, hget], hseen, hgeneration⟩

/-! ### The clock of a replacement -/

theorem core_timely {α : Type} {x : Step σ α} {now : ℕ} (h : Moves (Runtime.Timely now) x) :
    Moves (Timely now) (core x : ManagedStep σ ε α) := fun s => ⟨h s.runtime, rfl⟩

theorem store_timely (id : ComponentId) (c : PublishedComponent) (now : ℕ) :
    Moves (Timely now) (store id c : ManagedStep σ ε PUnit) := .update fun _ => ⟨fun h => h, rfl⟩

theorem failReplacedDependents_timely (A : ComponentExecutor F64 ε) (now : ℕ) (ids : List ComponentId) :
    Moves (Timely now) (failReplacedDependents A now ids : ManagedStep σ ε (List ManagedFact)) := by
  induction ids with
  | nil => exact .pure []
  | cons id ids ih =>
    refine .bind (.bind .get fun s => ?_) fun facts => .bind ih fun more => .pure _
    cases s.managed.get id with
    | none => exact .pure []
    | some c =>
      refine .bind (moves_timely (cancelPending_still A c.pending) now) fun _ => ?_
      cases c.signal.latest with
      | none => exact .bind (store_timely _ _ now) fun _ => .pure []
      | some last => exact .bind (store_timely _ _ now) fun _ => .bind (.lift _) fun _ => .pure _

theorem quiesceDependents_timely (A : ComponentExecutor F64 ε) (staged : StagedComponent) (id : ComponentId) (now : ℕ) :
    Moves (Timely now) (quiesceDependents A staged id now : ManagedStep σ ε (List ManagedFact)) :=
  .bind .get fun _ => .bind (.lift _) fun old => .bind
    (.forEach fun controller _ => core_timely (Runtime.pauseController_timely controller now)) fun _ =>
      .bind (moves_timely (cancelPending_still A old.pending) now) fun _ => failReplacedDependents_timely A now _

theorem retainedSignal_timely (replaces : Option ComponentId) (manifest : ComponentManifest F64) (now : ℕ) :
    Moves (Timely now) (retainedSignal replaces manifest now : ManagedStep σ ε (SignalBuffer × Option Sample)) := by
  cases replaces with
  | none => exact .bind (.lift _) fun signal => .pure _
  | some id =>
    refine .bind .get fun s => ?_
    cases s.managed.get id with
    | none => exact .stop _
    | some old =>
      refine .bind (.update fun _ => ⟨fun h => h, rfl⟩) fun _ => ?_
      cases old.signal.latest with
      | none => exact .pure _
      | some last => exact .bind (.lift _) fun _ => .pure _

theorem commitStaged_timely (A : ComponentExecutor F64 ε) (staged : StagedComponent) (result : ComponentResult F64) (now : ℕ) :
    Moves (Timely now) (commitStaged A staged result now : ManagedStep σ ε Unit) := by
  have hrest : ∀ invalidated : List ManagedFact, Moves (Timely now) (_ : ManagedStep σ ε Unit) := fun invalidated =>
    .bind (.lift ((managedDescriptor staged.definition.manifest).mapError rejected)) fun descriptor =>
      .bind (retainedSignal_timely staged.replaces staged.definition.manifest now) fun kept =>
        .bind (store_timely staged.definition.manifest.id
          { toManagedInstance := .committing staged.definition staged.correlation.generation result
            descriptor := descriptor
            signal := kept.1 } now) fun _ =>
          .forEach fun fact (_ : fact ∈ invalidated ++ (kept.2.map fun sample =>
            (⟨sample, staged.correlation.generation, 0, none⟩ : ManagedFact)).toList) => moves_timely (capture_still fact) now
  unfold commitStaged
  refine .bind (.lift _) fun _ => ?_
  cases hreplaces : staged.replaces with
  | none =>
    rw [hreplaces] at hrest
    exact .bind (.pure []) hrest
  | some id =>
    rw [hreplaces] at hrest
    exact .bind (quiesceDependents_timely A staged id now) hrest

/-! ### Stored components -/

/-- A new component is stored after its checks, or nothing happens. -/
theorem commitStaged_fresh (A : ComponentExecutor F64 ε) {staged : StagedComponent} (hfresh : staged.replaces = none)
    (result : ComponentResult F64) (now : ℕ) (s : ManagedRuntime σ ε) :
    ((commitStaged A staged result now).run s).2 = s ∨ ∃ descriptor signal,
      ManagedInstance.validateManagedResult result staged.definition.manifest .init = .ok () ∧
        managedDescriptor staged.definition.manifest = .ok descriptor ∧
        SignalBuffer.new staged.definition.manifest.signal staged.definition.manifest.historyCapacity = .ok signal ∧
        ((commitStaged A staged result now).run s).2 = s.withManaged (s.managed.insert staged.definition.manifest.id
          { toManagedInstance := .committing staged.definition staged.correlation.generation result
            descriptor := descriptor
            signal := signal }) := by
  unfold commitStaged
  rw [hfresh]
  dsimp only
  cases hvalid : ManagedInstance.validateManagedResult result staged.definition.manifest .init with
  | error error => exact .inl rfl
  | ok u =>
    cases hdescriptor : managedDescriptor staged.definition.manifest with
    | error error => exact .inl rfl
    | ok descriptor =>
      cases hsignal : SignalBuffer.new staged.definition.manifest.signal staged.definition.manifest.historyCapacity with
      | error error =>
        refine .inl ?_
        unfold retainedSignal
        dsimp only
        rw [hsignal]
        rfl
      | ok signal =>
        refine .inr ⟨descriptor, signal, rfl, rfl, rfl, ?_⟩
        unfold retainedSignal
        dsimp only
        rw [hsignal]
        rfl

/-- The window of the component that is replaced, without its component. -/
theorem retainedSignal_some {id : ComponentId} {old : PublishedComponent} {now : ℕ} (hget : s.managed.get id = some old)
    (hseen : attemptedAfter old now = false) (manifest : ComponentManifest F64) :
    ∃ failure, (retainedSignal (some id) manifest now).run s =
      (.ok (if old.signal.latest = none then old.signal else (old.signal.invalidate now .componentFailure).2, failure),
        s.withManaged (s.managed.remove id)) := by
  unfold retainedSignal
  dsimp only
  rw [Procedure.run_get_bind, hget]
  dsimp only
  rw [Procedure.run_modify_bind]
  cases hlast : old.signal.latest with
  | none => exact ⟨none, by simp⟩
  | some last =>
    refine ⟨(old.signal.invalidate now .componentFailure).2.latest, ?_⟩
    dsimp only
    rw [invalidate_ok hlast hseen, if_neg (by simp)]
    rfl

/-- A component in the place of another one: its checks, and from the component that it replaces, the change. -/
theorem commitStaged_evolves (A : ComponentExecutor F64 ε) {staged : StagedComponent} {id : ComponentId}
    (hreplaces : staged.replaces = some id) (hstageable : Stageable s.managed staged) (hopen : s.managedQuiesced = false)
    (result : ComponentResult F64) (now : ℕ) : s.Evolves ((commitStaged A staged result now).run s).2 := by
  obtain ⟨hown, kept, hkept, hretains⟩ := hstageable.kept id hreplaces
  obtain ⟨hquiesced, hreplaced⟩ := quiesceDependents_spares A staged id now (s := s)
  unfold commitStaged
  rw [hreplaces]
  dsimp only
  refine Moves.lift_at fun u hvalid => Moves.bind_at hquiesced fun facts t hrun => Moves.lift_at fun descriptor hdescriptor => ?_
  have hvalid := Checks.mapError_ok.1 hvalid
  have hdescriptor := Checks.mapError_ok.1 hdescriptor
  obtain ⟨old, hold, hget, hseen, hgeneration⟩ := hreplaced facts t hrun
  rw [hkept] at hold
  obtain rfl := Option.some.inj hold
  have hstill : t.managedQuiesced = false := by
    have htimely := quiesceDependents_timely A staged id now s
    rw [hrun] at htimely
    exact htimely.managedQuiesced.trans hopen
  have hchange := Change.replaced hstill hget hown hretains hgeneration hvalid hdescriptor hseen
  obtain ⟨failure, hretained⟩ := retainedSignal_some hget hseen staged.definition.manifest
  rw [Procedure.run_bind_ok hretained]
  dsimp only
  rw [Procedure.run_bind_ok (store_run _ _ _), hown]
  have hstored : ∀ c, (t.withManaged (t.managed.remove id)).withManaged ((t.managed.remove id).insert id c) =
      t.withManaged (t.managed.insert id c) := fun c => by rw [OrderedMap.insert_remove]; rfl
  refine trans_of Evolves hchange.evolves ?_
  rw [← hstored]
  exact moves_evolves (.forEach fun fact _ => (capture_still fact).mono fun _ _ h => h.aside) _

/-! ### Completions -/

theorem ignoring_snd (x : ManagedStep σ ε Unit) (s : ManagedRuntime σ ε) : ((ignoring x).run s).2 = (x.run s).2 := by
  show (ignoring x s).2 = (x.run s).2
  unfold ignoring
  split
  · rename_i h
    rw [h]
  · rename_i h
    rw [h]

theorem completeStaged_at (A : ComponentExecutor F64 ε) {staged : StagedComponent} (hstaged : s.staged = some staged)
    (completion : ComponentCompletion F64) (now : ℕ) :
    s.EvolvesAt now ((completeStaged A staged completion now).run s).2 := by
  intro htime
  have hdropped : s.Evolves { s with staged := none } := Change.dropped.evolves
  unfold completeStaged
  rw [Procedure.run_modify_bind]
  cases htimely : completion.timely with
  | false => exact ⟨hdropped, htime⟩
  | true =>
    cases houtcome : completion.outcome with
    | error error => exact ⟨hdropped, htime⟩
    | ok result =>
      dsimp only
      by_cases honly : staged.prepareOnly = true
      · rw [if_pos honly]
        by_cases hvalid : ManagedInstance.validateManagedResult result staged.definition.manifest .init = .ok ()
        · rw [if_pos hvalid]
          exact ⟨(Change.retained hstaged honly hvalid).evolves, htime⟩
        · rw [if_neg hvalid]
          exact ⟨hdropped, htime⟩
      · rw [if_neg honly, ignoring_snd]
        refine ⟨?_, (commitStaged_timely A staged result now { s with staged := none }).clock htime⟩
        cases hreplaces : staged.replaces with
        | some id =>
          intro hs
          have hstageable : Stageable ({ s with staged := none } : ManagedRuntime σ ε).managed staged := (hs.staged staged hstaged).1
          exact trans_of Evolves hdropped (commitStaged_evolves A hreplaces hstageable (hs.open_of_staged hstaged) result now) hs
        | none =>
          obtain heq | ⟨descriptor, signal, hvalid, hdescriptor, hwindow, heq⟩ :=
            commitStaged_fresh A hreplaces result now { s with staged := none }
          · rw [heq]
            exact hdropped
          · rw [heq]
            exact (Change.created hstaged hreplaces hvalid hdescriptor hwindow).evolves

theorem complete_at (A : ComponentExecutor F64 ε) (now : ℕ) (completion : ComponentCompletion F64) :
    Moves (EvolvesAt now) (complete A now completion : ManagedStep σ ε Unit) := by
  intro s
  unfold complete
  rw [Procedure.run_get_bind]
  cases hstaged : s.staged.filter fun staged => decide (staged.correlation = completion.correlation) with
  | none => exact commitStep_at A completion now s
  | some staged => exact completeStaged_at A (Option.filter_eq_some_iff.1 hstaged).1 completion now

theorem drain_at (A : ComponentExecutor F64 ε) (now n : ℕ) : Moves (EvolvesAt now) (drain A now n : ManagedStep σ ε Unit) := by
  induction n with
  | zero => exact .pure ()
  | succ n ih =>
    refine .bind (moves_at (tryPoll_still A) now) fun answer => ?_
    cases answer with
    | none => exact .pure ()
    | some completion => exact .bind (complete_at A now completion) fun _ => ih

theorem expireStaged_at (A : ComponentExecutor F64 ε) (now : ℕ) :
    Moves (EvolvesAt now) (expireStaged A : ManagedStep σ ε Unit) := by
  refine .bind .get fun s => ?_
  cases s.staged with
  | none => exact .pure ()
  | some staged =>
    refine .bind (moves_at (tryExpire_still A staged.correlation) now) fun late => ?_
    cases late with
    | false => exact .pure ()
    | true =>
      exact .bind (.update fun s htime => ⟨Change.dropped.evolves, htime⟩) fun _ => moves_at (cancel_still A staged.correlation) now

theorem expired_still (A : ComponentExecutor F64 ε) (entries : List (ComponentId × PublishedComponent)) :
    Moves Still (expired A entries : ManagedStep σ ε (List ComponentId)) := by
  induction entries with
  | nil => exact .pure []
  | cons entry rest ih =>
    obtain ⟨id, c⟩ := entry
    unfold expired
    cases c.pending with
    | none => exact .bind (.pure false) fun late => .bind ih fun others => .pure _
    | some correlation => exact .bind (tryExpire_still A correlation) fun late => .bind ih fun others => .pure _

theorem pollComponents_evolves (T : ByteTransport σ) (A : ComponentExecutor F64 ε) (now : ℕ) :
    Moves Evolves (pollComponents T A now : ManagedStep σ ε Unit) := by
  intro s
  have hserviced := core_aside (ε := ε) (Runtime.serviceSafety_onward T now) s
  refine Moves.bind_at hserviced.evolves fun u t hrun => ?_
  obtain ⟨runtime, hchecked, rfl⟩ := core_ok hrun
  have htime : runtime.outputTime = now := Runtime.serviceSafety_ok hchecked
  have hrest : Moves (EvolvesAt now) (_ : ManagedStep σ ε Unit) := .bind (expireStaged_at A now) fun _ => .bind .get fun s =>
    .bind (moves_at (expired_still A s.managed.entries) now) fun late =>
      .bind (.forEach fun id (_ : id ∈ late) => failComponent_at A id now) fun _ => drain_at A now 2
  exact (hrest { s with runtime := runtime } htime).1

/-! ### Staging and preparing -/

theorem stageComponent_evolves (A : ComponentExecutor F64 ε) (definition : ComponentDefinition F64) (replaces : Option ComponentId)
    (now : ℕ) (prepareOnly : Bool) (replacing : prepareOnly = true → replaces ≠ none) :
    Moves Evolves (stageComponent A definition replaces now prepareOnly : ManagedStep σ ε ComponentId) := by
  intro s
  unfold stageComponent
  rw [Procedure.run_get_bind]
  refine Moves.guard_at fun hopen => Moves.guard_at fun hidle => Moves.lift_at fun u hvalid => ?_
  have hclock := core_aside (ε := ε) (Runtime.checkOutputTime_onward (σ := σ) now) s
  obtain ⟨error, t, hrun, heq⟩ | ⟨_, t, hrun, heq⟩ := Procedure.bind_cases (core (Runtime.checkOutputTime now) : ManagedStep σ ε Unit)
    (fun _ => _) s
  · rw [heq]
    rw [hrun] at hclock
    exact hclock.evolves
  rw [heq, Procedure.run_get_bind]
  rw [hrun] at hclock
  obtain ⟨runtime, hended, rfl⟩ := core_ok hrun
  have hsame : nextIdentity { s with runtime := runtime } replaces = s.nextIdentity replaces := rfl
  rw [hsame]
  cases hidentity : s.nextIdentity replaces with
  | error error => exact hclock.evolves
  | ok identity =>
    obtain ⟨generation, revision⟩ := identity
    rw [Procedure.run_lift_ok_bind]
    dsimp only
    obtain ⟨error, t, hstill, hsubmit⟩ | ⟨executor, hport, hsubmit⟩ := trySubmit_cases A
      (ManagedInstance.stagingJob definition ⟨s.componentRuntime, definition.manifest.id, generation, 0, revision⟩ now)
      { s with runtime := runtime }
    · rw [Procedure.run_bind_error hsubmit]
      exact trans_of Evolves hclock.evolves hstill.aside.evolves
    · rw [Procedure.run_bind_ok hsubmit]
      exact Change.evolves (.staging (by simpa using hopen) (by simpa using hidle) hvalid hidentity hport hclock.onward
        (Runtime.checkOutputTime_ok hended) replacing)

/-! ### Prepared replacements -/

/-- What a batch holds: prepared replacements, with their revision brought up to date. -/
theorem checkBatch_ok {now : ℕ} {seen components : List ComponentId} {batch : List PreparedComponent}
    (h : s.checkBatch now seen components = .ok batch) :
    ∀ p ∈ batch, ∃ id q revision, s.prepared.get id = some q ∧
      p = { q with staged := { q.staged with correlation := { q.staged.correlation with revision := revision } } } := by
  induction components generalizing seen batch with
  | nil =>
    obtain rfl := Except.ok.inj h
    simp
  | cons id ids ih =>
    unfold checkBatch at h
    obtain ⟨-, h⟩ := Checks.reject_bind.1 h
    cases hprepared : s.prepared.get id with
    | none => simp [hprepared] at h
    | some q =>
      rw [hprepared] at h
      obtain ⟨_, -, h⟩ := Checks.bind_ok.1 h
      obtain ⟨_, -, h⟩ := Checks.bind_ok.1 h
      cases hold : s.managed.get id with
      | none => simp [hold] at h
      | some old =>
        rw [hold] at h
        obtain ⟨-, h⟩ := Checks.reject_bind.1 h
        obtain ⟨rest, hrest, h⟩ := Checks.bind_ok.1 h
        obtain rfl := Checks.pure_ok.1 h
        intro p hp
        rcases List.mem_cons.1 hp with rfl | hp
        · exact ⟨id, q, old.revision, hprepared, rfl⟩
        · exact ih hrest p hp

/-- A path keeps what a replacement replaces. -/
theorem Change.follows (h : s.Change s') (hs : s.Sound) : Follows s.managed s'.managed := by
  cases h with
  | aside h =>
    rw [h.managed]
    exact .refl _
  | created pending fresh valid described window => exact follows_created ((hs.staged _ pending).1.fresh fresh) _
  | replaced isOpen hget own keeps next valid described seen => exact follows_replaced hget (.inr keeps)
  | failing hget seen unavailable => exact follows_replaced hget (.inl rfl)
  | invoked hget live idle isOpen captured built port clock => exact follows_replaced hget (.inl rfl)
  | committed hget decided publishes clock =>
    obtain ⟨result, -, -, -, -, -, -, -, hpublished⟩ := committed_ok decided publishes
    exact follows_replaced hget (.inl (by rw [hpublished]; rfl))
  | _ => exact .refl _

/-- What replaces a component still may, whatever happened since. -/
theorem path_stageable {staged : StagedComponent} (h : s.Path s') (hs : s.Sound) (hstaged : Stageable s.managed staged)
    (hne : staged.replaces ≠ none) : Stageable s'.managed staged := by
  induction h with
  | refl => exact hstaged
  | tail hpath hchange ih => exact ih.follows (hchange.follows (path_sound hpath hs)) fun hnone => absurd hnone hne

theorem commitBatch_evolves (A : ComponentExecutor F64 ε) (now : ℕ) {batch : List PreparedComponent}
    (hbatch : ∀ p ∈ batch, Stageable s.managed p.staged ∧ p.staged.replaces ≠ none)
    (hopen : batch ≠ [] → s.managedQuiesced = false) :
    s.Evolves ((Procedure.forEach batch fun p => commitStaged A p.staged p.result now).run s).2 := by
  induction batch generalizing s with
  | nil => exact refl_of Evolves s
  | cons p rest ih =>
    intro hs
    obtain ⟨hstageable, hne⟩ := hbatch p List.mem_cons_self
    obtain ⟨id, hid⟩ := Option.ne_none_iff_exists'.1 hne
    have hopen := hopen (List.cons_ne_nil p rest)
    have hfirst := commitStaged_evolves A hid hstageable hopen p.result now
    refine Moves.bind_at (R := Evolves) hfirst (fun _ t hrun => ih (fun q hq => ?_) fun _ => ?_) hs
    · rw [hrun] at hfirst
      obtain ⟨hq, hqne⟩ := hbatch q (List.mem_cons_of_mem _ hq)
      exact ⟨path_stageable (hfirst hs) hs hq hqne, hqne⟩
    · have htimely := commitStaged_timely A p.staged p.result now s
      rw [hrun] at htimely
      exact htimely.managedQuiesced.trans hopen

theorem commitPreparedComponents_evolves (A : ComponentExecutor F64 ε) (components : List ComponentId) (now : ℕ) :
    Moves Evolves (commitPreparedComponents A components now : ManagedStep σ ε ℕ) := by
  intro s hs
  unfold commitPreparedComponents
  refine Moves.guard_at (R := Evolves) (fun _ => ?_) hs
  rw [Procedure.run_get_bind]
  refine Moves.lift_at fun batch hchecked => Moves.bind_from ?_ fun _ => .bind (.update fun t => ?_) fun _ => .pure _
  · refine commitBatch_evolves A now (fun p hp => ?_) fun hbatch => ?_
    · obtain ⟨id, q, revision, hq, rfl⟩ := checkBatch_ok hchecked p hp
      obtain ⟨hstageable, hreplaces⟩ := hs.prepared id q hq
      exact ⟨⟨hstageable.fresh, hstageable.kept⟩, by simp [hreplaces]⟩
    · obtain ⟨p, hp⟩ := List.exists_mem_of_ne_nil _ hbatch
      obtain ⟨id, q, revision, hq, -⟩ := checkBatch_ok hchecked p hp
      exact hs.open_of_prepared hq
  · refine (Change.forgotten fun id p hp => ?_).evolves
    rw [OrderedMap.get_retain] at hp
    exact (Option.filter_eq_some_iff.1 hp).1

theorem discardPreparedComponents_evolves : Moves Evolves (discardPreparedComponents : ManagedStep σ ε PUnit) :=
  .update fun _ => (Change.forgotten fun _ _ hp => (by cases hp)).evolves

/-! ### Quiescing and installing -/

theorem quiesceManaged_evolves (A : ComponentExecutor F64 ε) (now : ℕ) :
    Moves Evolves (quiesceManaged A now : ManagedStep σ ε Unit) := by
  intro s
  refine core_bind (Runtime.checkOutputTime_onward now) fun _ runtime honward hended => ?_
  have htime : runtime.outputTime = now := Runtime.checkOutputTime_ok hended
  generalize hs₁ : ({ s with runtime := runtime } : ManagedRuntime σ ε) = s₁
  have htime₁ : s₁.runtime.outputTime = now := by rw [← hs₁]; exact htime
  rw [Procedure.run_get_bind]
  by_cases hquiesced : s₁.managedQuiesced = true
  · rw [if_pos hquiesced]
    exact refl_of Evolves s₁
  · rw [if_neg hquiesced, Procedure.run_modify_bind]
    refine trans_of Evolves Change.quiesced.evolves ?_
    have hrest : Moves (EvolvesAt now) (do
        cancelPending A (s₁.staged.map StagedComponent.correlation)
        Procedure.forEach s₁.managed.keys fun id => failComponent A id now
        modify fun s => { s with executor := s.executor.map A.beginShutdown } : ManagedStep σ ε Unit) :=
      .bind (moves_at (cancelPending_still A _) now) fun _ => .bind (.forEach fun id _ => failComponent_at A id now) fun _ =>
        .update fun t => (still_executor (by simp)).at
    exact (hrest { s₁ with managedQuiesced := true, staged := none, prepared := .empty } htime₁).1

theorem installComponentExecutor_evolves (executor : ε) (identity : ℕ) :
    Moves Evolves (installComponentExecutor executor identity : ManagedStep σ ε Unit) := by
  intro s
  unfold installComponentExecutor
  rw [Procedure.run_get_bind]
  refine Moves.guard_at fun hidle => ?_
  simp only [Bool.or_eq_true, not_or, Bool.not_eq_true, Option.isSome_eq_false_iff, Option.isNone_iff_eq_none,
    Bool.not_eq_false', List.isEmpty_iff] at hidle
  exact (Change.installed hidle.1.1 hidle.1.2 hidle.2).evolves

/-! ### References and native instruments -/

theorem aside_models {models : OrderedMap InstrumentId PlantModel} : s.Aside { s with models := models } :=
  ⟨rfl, rfl, rfl, rfl, rfl, rfl, rfl, rfl, .refl _⟩

theorem aside_settings {settings : OrderedMap InstrumentId VirtualInstrument.Settings} : s.Aside { s with settings := settings } :=
  ⟨rfl, rfl, rfl, rfl, rfl, rfl, rfl, rfl, .refl _⟩

theorem record_aside (f : FactOutbox → FactOutbox) : Moves Aside (record f : ManagedStep σ ε PUnit) :=
  core_aside (Runtime.moves_onward (Runtime.record_shell f))

theorem storeReference_aside (id : ReferenceId) (reference : RuntimeReference) :
    Moves Aside (storeReference id reference : ManagedStep σ ε PUnit) :=
  .update fun _ => ⟨rfl, rfl, rfl, rfl, rfl, rfl, rfl, rfl, .refl _⟩

theorem captureReferenceFact_aside (id : ReferenceId) (now : ℕ) :
    Moves Aside (captureReferenceFact id now : ManagedStep σ ε PUnit) := by
  refine .bind .get fun s => ?_
  cases s.references.get id with
  | none => exact .pure PUnit.unit
  | some reference => exact record_aside _

theorem registerReference_aside (config : ReferenceConfig) : Moves Aside (registerReference config : ManagedStep σ ε Unit) :=
  .bind .get fun _ => .guard fun _ => .guard fun _ => .bind (.lift _) fun _ => .bind (storeReference_aside _ _) fun _ =>
    captureReferenceFact_aside _ _

theorem onReference_aside {α : Type} (id : ReferenceId) (now : ℕ)
    (f : RuntimeReference → Except ReferenceError α × RuntimeReference) : Moves Aside (onReference id now f : ManagedStep σ ε α) := by
  refine .bind .get fun s => ?_
  cases s.references.get id with
  | none => exact .stop _
  | some reference =>
    exact .bind (storeReference_aside _ _) fun _ => .bind (.lift _) fun result => .bind (captureReferenceFact_aside _ _) fun _ => .pure _

theorem reconfigureReference_aside (id : ReferenceId) (config : ReferenceConfig) (expectedRevision : ℕ) :
    Moves Aside (reconfigureReference id config expectedRevision : ManagedStep σ ε ReferenceSnapshot) := by
  refine .bind .get fun s => ?_
  cases s.references.get id with
  | none => exact .stop _
  | some reference => exact .guard fun _ => onReference_aside _ _ _

theorem requireFree_aside (id : InstrumentId) : Moves Aside (core (Runtime.requireFreeInstrument id) : ManagedStep σ ε Unit) :=
  core_aside fun s => by
    rw [Runtime.requireFreeInstrument_run]
    exact refl_of Runtime.Onward s

theorem registerVirtual_aside (config : VirtualInstrument.Config) : Moves Aside (registerVirtual config : ManagedStep σ ε Unit) :=
  .bind (requireFree_aside _) fun _ => .bind (.lift _) fun _ =>
    .bind (.lift _) fun _ => .bind (core_aside (Runtime.registerVirtual_onward _ _)) fun _ => .update fun _ => aside_settings

theorem registerThermalPlant_aside (config : Deployment.ThermalPlantConfig) :
    Moves Aside (registerThermalPlant config : ManagedStep σ ε Unit) :=
  .bind (requireFree_aside _) fun _ => .bind (.lift _) fun _ =>
    .bind (core_aside (Runtime.registerThermalPlant_onward _)) fun _ => .update fun _ => aside_models

/-- A registered virtual instrument may be stored anew. -/
theorem storeVirtual_aside {id : InstrumentId} {instrument : NativeInstrument}
    (hget : s.runtime.virtualInstruments.get id = some instrument) (stored : NativeInstrument) :
    s.Aside ((storeVirtual id stored).run s).2 :=
  aside_runtime (Runtime.SameShell.onward (by simp only [Runtime.SameShell, Runtime.shell, Runtime.keys_replace hget]))

theorem storePlant_aside {id : InstrumentId} {plant : ThermalPlant} (hget : s.runtime.thermalPlants.get id = some plant)
    (stored : ThermalPlant) (model : PlantModel) : s.Aside ((storePlant id stored model).run s).2 :=
  ⟨rfl, rfl, rfl, rfl, rfl, rfl, rfl, rfl, (Runtime.heat_shell hget stored).onward⟩

theorem publishVirtualMeasurement_aside (id : InstrumentId) (parameter : ParameterId) (value : Option Value)
    (expectedGeneration now : ℕ) :
    Moves Aside (publishVirtualMeasurement id parameter value expectedGeneration now : ManagedStep σ ε Sample) := by
  intro s
  unfold publishVirtualMeasurement
  refine Moves.guard_at fun _ => ?_
  rw [Procedure.run_get_bind]
  cases hget : s.runtime.virtualInstruments.get id with
  | none => exact refl_of Aside s
  | some instrument =>
    refine Moves.lift_at fun published _ => ?_
    exact Moves.bind_from (storeVirtual_aside hget published.2) fun _ => .bind (record_aside _) fun _ => .pure _

theorem restartThermalPlant_aside (id : InstrumentId) (config : Deployment.ThermalPlantConfig) (expectedGeneration : ℕ) :
    Moves Aside (restartThermalPlant id config expectedGeneration : ManagedStep σ ε ℕ) := by
  intro s
  unfold restartThermalPlant
  refine Moves.guard_at fun _ => ?_
  rw [Procedure.run_get_bind]
  dsimp only
  cases hget : s.runtime.thermalPlants.get id with
  | none => exact refl_of Aside s
  | some plant =>
    cases s.models.get id with
    | none => exact refl_of Aside s
    | some current =>
      refine Moves.guard_at fun _ => Moves.guard_at fun _ => Moves.guard_at fun _ => ?_
      cases checkedAdd expectedGeneration 1 with
      | none => exact refl_of Aside s
      | some generation =>
        refine Moves.lift_at fun built _ => ?_
        exact Moves.bind_from (storePlant_aside hget built.1 _) fun _ => .pure _

theorem injectPlantMeasurementFailure_aside (id : InstrumentId) (now : ℕ) :
    Moves Aside (injectPlantMeasurementFailure id now : ManagedStep σ ε Sample) := by
  intro s
  unfold injectPlantMeasurementFailure
  rw [Procedure.run_get_bind]
  dsimp only
  cases hget : s.runtime.thermalPlants.get id with
  | none => exact refl_of Aside s
  | some plant =>
    cases s.models.get id with
    | none => exact refl_of Aside s
    | some model =>
      refine Moves.lift_at fun injected _ => ?_
      exact Moves.bind_from (storePlant_aside hget injected.2 model) fun _ => .bind (record_aside _) fun _ => .pure _

theorem captureAt_aside (instrument : NativeInstrument) (generation now : ℕ) :
    Moves Aside (captureAt instrument generation now : ManagedStep σ ε PUnit) := by
  unfold captureAt
  cases instrument.temperatureSignal.bind SignalBuffer.latest with
  | none => exact .pure PUnit.unit
  | some sample =>
    dsimp only
    split_ifs
    · exact record_aside _
    · exact .pure PUnit.unit

theorem refreshPlant_aside (expM1 : F64 → F64) {id : InstrumentId} {plant : ThermalPlant}
    (hget : s.runtime.thermalPlants.get id = some plant) (model : PlantModel) (parameter : ParameterId) (now : ℕ) :
    s.Aside ((refreshPlant expM1 id plant model parameter now).run s).2 := by
  unfold refreshPlant
  refine Moves.guard_at fun _ => ?_
  cases PlantModel.refresh expM1 plant model now with
  | error error => exact Moves.bind_from (captureAt_aside _ _ _ s) fun _ => .stop _
  | ok refreshed =>
    exact Moves.bind_from (storePlant_aside hget refreshed.2.1 refreshed.2.2) fun _ => .bind (captureAt_aside _ _ _) fun _ => .pure _

theorem refreshVirtual_aside {id : InstrumentId} {instrument : NativeInstrument}
    (hget : s.runtime.virtualInstruments.get id = some instrument) (settings : VirtualInstrument.Settings) (parameter : ParameterId)
    (now : ℕ) : s.Aside ((refreshVirtual id instrument settings parameter now).run s).2 := by
  unfold refreshVirtual
  refine Moves.bind_from (storeVirtual_aside hget _) fun _ => ?_
  split_ifs
  · exact .bind (captureAt_aside _ _ _) fun _ => .lift _
  · exact .lift _

theorem refreshMeasurement_aside (expM1 : F64 → F64) (id : InstrumentId) (parameter : ParameterId) (now : ℕ) :
    Moves Aside (refreshMeasurement expM1 id parameter now : ManagedStep σ ε Sample) := by
  intro s
  unfold refreshMeasurement
  rw [Procedure.run_get_bind]
  split
  next instrument settings hget _ => exact refreshVirtual_aside hget settings parameter now
  · split
    next plant model hget _ => exact refreshPlant_aside expM1 hget model parameter now
    · split_ifs <;> exact refl_of Aside s

theorem configureParameter_aside (id : InstrumentId) (parameter : ParameterId) (value : Value) :
    Moves Aside (configureParameter id parameter value : ManagedStep σ ε Unit) := by
  have hrefused : ∀ s : ManagedRuntime σ ε, Moves Aside
      (if s.runtime.metakonInstruments.contains id || s.runtime.thermalPlants.contains id then fail (.operationNotAllowed parameter)
        else fail (.unknownInstrument id) : ManagedStep σ ε Unit) := by
    intro s
    split_ifs <;> exact .stop _
  refine .bind .get fun s => ?_
  cases s.runtime.virtualInstruments.get id with
  | none => exact hrefused s
  | some instrument =>
    cases s.settings.get id with
    | none => exact hrefused s
    | some settings => exact .bind (.lift _) fun _ => .update fun _ => aside_settings

/-! ### The machine -/

/-- The commands on managed components. -/
def Op.manages : Op σ ε → Bool
  | .stageComponent .. | .prepareComponentReplacement .. | .commitPreparedComponents .. | .discardPreparedComponents
  | .invokeComponent .. | .pollComponents _ | .quiesceManaged _ | .installComponentExecutor .. => true
  | _ => false

/-- Every other command leaves the managed components alone. -/
theorem perform_aside (M : Platform σ ε) {op : Op σ ε} (h : op.manages = false) : Moves Aside (perform M op) := by
  have hdiscard : ∀ {α : Type} {x : ManagedStep σ ε α}, Moves Aside x → Moves Aside (discarding x) := fun h =>
    .bind h fun _ => .pure ()
  cases op with
  | registerReference config => exact registerReference_aside _
  | evaluateReference id now => exact hdiscard (onReference_aside _ _ _)
  | retuneRampReference id target rate expectedRevision now => exact hdiscard (onReference_aside _ _ _)
  | reconfigureReference id config expectedRevision => exact hdiscard (reconfigureReference_aside _ _ _)
  | prepareController id => exact .bind .get fun _ => core_aside (Runtime.moves_onward (Runtime.prepareController_shell _ _))
  | reconfigureController id config expectedRevision algorithmsValid =>
    exact .bind .get fun _ => core_aside (Runtime.moves_onward (Runtime.reconfigureController_shell _ _ _ _ _))
  | registerVirtual config => exact registerVirtual_aside _
  | publishVirtualMeasurement id parameter value expectedGeneration now => exact hdiscard (publishVirtualMeasurement_aside _ _ _ _ _)
  | registerThermalPlant config => exact registerThermalPlant_aside _
  | restartThermalPlant id config expectedGeneration => exact hdiscard (restartThermalPlant_aside _ _ _)
  | injectPlantMeasurementFailure id now => exact hdiscard (injectPlantMeasurementFailure_aside _ _)
  | configureParameter id parameter value => exact configureParameter_aside _ _ _
  | refreshMeasurement id parameter now => exact hdiscard (refreshMeasurement_aside _ _ _ _)
  | call op =>
    show Moves Aside (if external op then core (Runtime.perform M.transport op) else pure ())
    split_ifs with hexternal
    · refine core_aside (Runtime.perform_onward M.transport op fun work heq => ?_)
      rw [heq] at hexternal
      cases hexternal
    · exact .pure ()
  | _ => cases h

theorem discarding_evolves {α : Type} {x : ManagedStep σ ε α} (h : Moves Evolves x) : Moves Evolves (discarding x) :=
  .bind h fun _ => .pure ()

/-- Every command is a path of changes. -/
theorem perform_evolves (M : Platform σ ε) (op : Op σ ε) : Moves Evolves (perform M op) := by
  by_cases hop : op.manages = false
  · exact moves_evolves (perform_aside M hop)
  cases op with
  | stageComponent definition replaces now => exact discarding_evolves (stageComponent_evolves _ _ _ _ _ (by simp))
  | prepareComponentReplacement definition replaces now => exact discarding_evolves (stageComponent_evolves _ _ _ _ _ (by simp))
  | commitPreparedComponents components now => exact discarding_evolves (commitPreparedComponents_evolves _ _ _)
  | discardPreparedComponents => exact discardPreparedComponents_evolves
  | invokeComponent id now => exact discarding_evolves (invokeComponent_evolves _ _ _)
  | pollComponents now => exact pollComponents_evolves _ _ _
  | quiesceManaged now => exact quiesceManaged_evolves _ _
  | installComponentExecutor executor identity => exact installComponentExecutor_evolves _ _
  | _ => exact absurd rfl hop

theorem step_evolves (M : Platform σ ε) (s : ManagedRuntime σ ε) (op : Op σ ε) : s.Evolves (step M s op) :=
  perform_evolves M op s

theorem run_sound (M : Platform σ ε) (ops : List (Op σ ε)) : (run M ops).Sound := by
  refine History.Stable.after (I := Sound) (fun s op hs => ?_) empty_sound ops
  exact path_sound (step_evolves M s op hs) hs

/-- A run that goes on is a path of changes from where it was. -/
theorem after_path (M : Platform σ ε) {s : ManagedRuntime σ ε} (hs : s.Sound) (ops : List (Op σ ε)) :
    s.Path (History.after (step M) s ops) := by
  refine History.run_induction (s := s) (I := fun _ t => s.Path t) .refl (fun earlier op ih => ?_) ops
  exact ih.trans (step_evolves M _ op (path_sound ih hs))

/-- What holds of a new owner and is kept by every change holds after every run. -/
theorem run_keeps {I : ManagedRuntime σ ε → Prop} (hchange : ∀ s t, s.Sound → I s → s.Change t → I t) (hempty : I (empty σ ε))
    (M : Platform σ ε) (ops : List (Op σ ε)) : I (run M ops) :=
  path_keeps hchange (after_path M empty_sound ops) empty_sound hempty

end LabRuntime.ManagedRuntime
