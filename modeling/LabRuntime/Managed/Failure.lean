import LabRuntime.Managed.Topology
import LabRuntime.Runtime.Receipts

/-! What a failure does: the component fails with everything that reads it, so do the controllers, and nothing else changes.
After the components are quiesced nothing is submitted or committed any more. -/

namespace LabRuntime

/-! ### Controllers -/

namespace Runtime

variable {σ : Type} {s s' : Runtime σ}

/-- The call leaves the controllers alone. -/
def SameControllers (s s' : Runtime σ) : Prop := s'.controllers = s.controllers

instance : Std.Refl (SameControllers (σ := σ)) := ⟨fun _ => rfl⟩

instance : IsTrans (Runtime σ) SameControllers := ⟨fun _ _ _ h h' => h'.trans h⟩

theorem settle_controllers {α : Type} (actuator : ActuatorId) (o : Outcome α) :
    Procedure.Moves SameControllers (settle actuator o : Step σ α) := by
  refine .bind (.update fun _ => rfl) fun _ => ?_
  cases o.1 with
  | ok a => exact .pure a
  | error error => exact .stop _

theorem applyVirtualDispatch_controllers (actuator : ActuatorId) (value : F64) :
    Procedure.Moves SameControllers (applyVirtualDispatch actuator value : Step σ Unit) := by
  refine .bind .get fun s => ?_
  cases s.thermalPlants.get actuator.instrument with
  | none => exact .pure ()
  | some plant =>
    dsimp only
    split_ifs
    · refine .bind ?_ fun _ => .update fun _ => rfl
      cases (ValueSpec.float (F64.ofInt 0) (F64.ofInt 100)).validate (.float value) with
      | error error => exact .stop _
      | ok u => exact .pure u
    · exact .pure ()

theorem completeSimulatedSafe_controllers (actuator : ActuatorId) (now : ℕ) :
    Procedure.Moves SameControllers (completeSimulatedSafe actuator now : Step σ Unit) := by
  have hrecord : ∀ f, Procedure.Moves SameControllers (record f : Step σ PUnit) := fun f => .update fun _ => rfl
  refine .bind (.bind .get fun s => ?_) fun dispatch => .bind .get fun _ => .bind (hrecord _) fun _ =>
    .bind (applyVirtualDispatch_controllers _ _) fun _ => .bind (.bind .get fun s => ?_) fun _ => hrecord _
  · cases s.outputs.get actuator with
    | none => exact .stop _
    | some authority =>
      refine .bind (settle_controllers _ _) fun result => ?_
      cases result with
      | dispatched dispatch => exact .bind .get fun _ => .bind (.update fun _ => rfl) fun _ => .pure _
      | _ => exact .stop _
  · cases s.outputs.get actuator with
    | none => exact .stop _
    | some authority => exact settle_controllers _ _

theorem failController_controllers (controller : NativeController) (now : ℕ) :
    Procedure.Moves SameControllers (failController controller now : Step σ Unit) := by
  refine .bind .get fun s => ?_
  cases s.outputs.get controller.config.output with
  | none => exact .stop _
  | some authority =>
    dsimp only
    split_ifs
    · refine .bind (settle_controllers _ _) fun _ => .bind .get fun s => ?_
      split_ifs
      · exact completeSimulatedSafe_controllers _ _
      · exact .pure ()
    · exact .pure ()

theorem completeSimulatedSafe_stops (actuator : ActuatorId) (now : ℕ) :
    Procedure.Stops Rejects (completeSimulatedSafe actuator now : Step σ Unit) :=
  .bind (beginSimulated_stops now) fun _ => .bind .get fun _ => .bind (record_stops _) fun _ =>
    .bind (applyVirtualDispatch_stops _) fun _ => .bind (onOutput_stops _) fun _ => record_stops _

theorem failController_stops (controller : NativeController) (now : ℕ) :
    Procedure.Stops Rejects (failController controller now : Step σ Unit) := by
  refine .bind .get fun s => ?_
  cases s.outputs.get controller.config.output with
  | none => exact reject_stops _
  | some authority =>
    dsimp only
    split_ifs
    · refine .bind (settle_stops _) fun _ => .bind .get fun s => ?_
      split_ifs
      · exact completeSimulatedSafe_stops _ _
      · exact .pure ()
    · exact .pure ()

/-- Ignoring a failure that only rejects goes on from where it ended. -/
theorem ignoring_rejects {α : Type} {x : Step σ α} (h : Procedure.Stops Rejects x) (s : Runtime σ) :
    (ignoring x).run s = (.ok (), (x.run s).2) := by
  unfold ignoring
  rw [Procedure.run_bind, run_trying]
  rcases hx : x.run s with ⟨(error | _) | a, t⟩
  · rfl
  · exact absurd rfl (h s .panicked (by rw [hx]))
  · rfl

/-- A controller that is there is not live afterwards, and the others are as they were. -/
theorem failDependent_run {id : ControllerId} {c : NativeController} (hget : s.controllers.get id = some c) (now : ℕ) :
    ∃ t c', (failDependent id now).run s = (.ok (), t) ∧ c'.config = c.config ∧ c'.state.live = false ∧
      t.controllers = s.controllers.insert id c' := by
  have hknown : (knownController id : Step σ NativeController).run s = (.ok c, s) := by
    unfold knownController
    rw [Procedure.run_get_bind, hget]
    rfl
  unfold failDependent
  rw [Procedure.run_bind_ok hknown]
  by_cases hdead : c.state.live = false
  · rw [if_pos hdead]
    exact ⟨s, c, rfl, rfl, hdead, (s.controllers.insert_get hget).symm⟩
  rw [if_neg hdead, Procedure.run_modify_bind]
  by_cases hwarm : c.state = .warming
  · rw [if_neg (not_not.2 hwarm)]
    refine ⟨{ s with controllers := (s.controllers.remove id).insert id { c with state := .failed } }, { c with state := .failed }, ?_,
      rfl, rfl, OrderedMap.insert_remove _⟩
    dsimp only
    rw [if_pos hwarm]
    rfl
  · rw [if_pos hwarm]
    have hkept := failController_controllers c now { s with controllers := s.controllers.remove id }
    have hignored := ignoring_rejects (failController_stops c now) { s with controllers := s.controllers.remove id }
    generalize ((failController c now).run { s with controllers := s.controllers.remove id }).2 = t at hkept hignored
    refine ⟨{ t with controllers := t.controllers.insert id c.fail }, c.fail, ?_, rfl, rfl, ?_⟩
    · rw [Procedure.run_bind_ok hignored]
      dsimp only
      rw [if_neg hwarm]
      rfl
    · show t.controllers.insert id c.fail = _
      rw [show t.controllers = s.controllers.remove id from hkept, OrderedMap.insert_remove]

end Runtime
namespace ManagedRuntime

open Procedure (Moves)

variable {σ ε : Type} {s s' s'' : ManagedRuntime σ ε}

/-! ### Components -/

/-- A failed component, which awaits nothing. -/
def Dead (c : PublishedComponent) : Prop := c.state = .failed ∧ c.pending = none

/-- These components are dead, and the others and the controllers as they were. -/
structure FailsOnly (ids : List ComponentId) (s s' : ManagedRuntime σ ε) : Prop where
  dead : ∀ id ∈ ids, ∀ c, s'.managed.get id = some c → Dead c
  before : ∀ id c, s'.managed.get id = some c → ∃ old, s.managed.get id = some old ∧ c.definition = old.definition ∧ (Dead old → Dead c)
  keys : s'.managed.keys = s.managed.keys
  others : ∀ id, id ∉ ids → s'.managed.get id = s.managed.get id
  controllers : s'.runtime.controllers = s.runtime.controllers

theorem FailsOnly.trans {ids ids' : List ComponentId} (h : s.FailsOnly ids s') (h' : s'.FailsOnly ids' s'') :
    s.FailsOnly (ids ++ ids') s'' where
  dead id hid c hc := by
    rcases List.mem_append.1 hid with hid | hid
    · obtain ⟨old, hold, -, hdead⟩ := h'.before id c hc
      exact hdead (h.dead id hid old hold)
    · exact h'.dead id hid c hc
  before id c hc := by
    obtain ⟨middle, hmiddle, hdefinition, hdead⟩ := h'.before id c hc
    obtain ⟨old, hold, hdefinition', hdead'⟩ := h.before id middle hmiddle
    exact ⟨old, hold, hdefinition.trans hdefinition', fun hdying => hdead (hdead' hdying)⟩
  keys := h'.keys.trans h.keys
  others id hid := by
    rw [List.mem_append, not_or] at hid
    exact (h'.others id hid.2).trans (h.others id hid.1)
  controllers := h'.controllers.trans h.controllers

/-- A component fails, where it is there. -/
theorem failOne_run (A : ComponentExecutor F64 ε) (now : ℕ) (id : ComponentId) (s : ManagedRuntime σ ε) :
    ∃ t, (failOne A now id).run s = (.ok (), t) ∧ s.FailsOnly [id] t := by
  unfold failOne
  rw [Procedure.run_get_bind]
  cases hget : s.managed.get id with
  | none =>
    refine ⟨s, rfl, fun other hother c hc => ?_, fun other c hc => ⟨c, hc, rfl, fun h => h⟩, rfl, fun _ _ => rfl, rfl⟩
    obtain rfl := List.mem_singleton.1 hother
    rw [hget] at hc
    cases hc
  | some c =>
    dsimp only
    obtain ⟨executor, hport, hrun⟩ := cancelPending_ok A c.pending s
    rw [Procedure.run_bind_ok hrun, Procedure.run_bind_ok (store_run _ _ _)]
    have hstored : ∀ t : ManagedRuntime σ ε, t.managed = s.managed.insert id (c.failing now) →
        t.runtime.controllers = s.runtime.controllers → s.FailsOnly [id] t := by
      intro t hmanaged hcontrollers
      refine ⟨fun other hother d hd => ?_, fun other d hd => ?_, ?_, fun other hother => ?_, hcontrollers⟩
      · obtain rfl := List.mem_singleton.1 hother
        rw [hmanaged, OrderedMap.get_insert_self] at hd
        obtain rfl := Option.some.inj hd
        exact ⟨rfl, rfl⟩
      · rw [hmanaged] at hd
        obtain ⟨rfl, rfl⟩ | hold := OrderedMap.get_insert_cases _ hd
        · exact ⟨c, hget, rfl, fun _ => ⟨rfl, rfl⟩⟩
        · exact ⟨d, hold, rfl, fun h => h⟩
      · rw [hmanaged, OrderedMap.keys_insert_of_mem]
        rw [OrderedMap.mem_keys, hget]
        rfl
      · rw [hmanaged, OrderedMap.get_insert_of_ne _ (by simpa using hother)]
    cases (c.failing now).signal.latest with
    | none => exact ⟨_, rfl, hstored _ rfl rfl⟩
    | some sample =>
      dsimp only
      split_ifs
      · exact ⟨_, rfl, hstored _ rfl rfl⟩
      · exact ⟨_, rfl, hstored _ rfl rfl⟩

theorem failOnes_run (A : ComponentExecutor F64 ε) (now : ℕ) (ids : List ComponentId) (s : ManagedRuntime σ ε) :
    ∃ t, (Procedure.forEach ids (failOne A now)).run s = (.ok (), t) ∧ s.FailsOnly ids t := by
  induction ids generalizing s with
  | nil => exact ⟨s, rfl, fun _ hid => absurd hid List.not_mem_nil, fun _ c hc => ⟨c, hc, rfl, fun h => h⟩, rfl, fun _ _ => rfl, rfl⟩
  | cons id ids ih =>
    obtain ⟨t, hrun, hfirst⟩ := failOne_run A now id s
    obtain ⟨u, hrest, hothers⟩ := ih t
    refine ⟨u, ?_, hfirst.trans hothers⟩
    rw [Procedure.forEach_cons, Procedure.run_bind_ok hrun]
    exact hrest

/-- Controllers that read a failed signal are not live any more. -/
structure Stopped (ids : List ControllerId) (s s' : ManagedRuntime σ ε) : Prop where
  dead : ∀ id ∈ ids, ∀ c, s'.runtime.controllers.get id = some c → c.state.live = false
  before : ∀ id c, s'.runtime.controllers.get id = some c → ∃ old, s.runtime.controllers.get id = some old ∧
    c.config = old.config ∧ (old.state.live = false → c.state.live = false)
  managed : s'.managed = s.managed

theorem stopReaders_run (now : ℕ) (ids : List ControllerId) (s : ManagedRuntime σ ε)
    (hknown : ∀ id ∈ ids, (s.runtime.controllers.get id).isSome = true) :
    ∃ t, (Procedure.forEach ids fun id => core (Runtime.failDependent id now)).run s = (.ok (), t) ∧ s.Stopped ids t := by
  induction ids generalizing s with
  | nil => exact ⟨s, rfl, fun _ hid => absurd hid List.not_mem_nil, fun _ c hc => ⟨c, hc, rfl, fun h => h⟩, rfl⟩
  | cons id ids ih =>
    obtain ⟨c, hget⟩ := Option.isSome_iff_exists.1 (hknown id List.mem_cons_self)
    obtain ⟨runtime, c', hrun, hconfig, hdead, hcontrollers⟩ := Runtime.failDependent_run hget now
    obtain ⟨t, hrest, hstopped⟩ := ih { s with runtime := runtime } fun other hother => by
      dsimp only
      rw [hcontrollers, OrderedMap.get_insert]
      split_ifs
      · rfl
      · exact hknown other (List.mem_cons_of_mem _ hother)
    refine ⟨t, ?_, fun other hother d hd => ?_, fun other d hd => ?_, hstopped.managed⟩
    · have hfirst : (core (Runtime.failDependent id now) : ManagedStep σ ε Unit).run s = (.ok (), { s with runtime := runtime }) := by
        rw [core_run, hrun]
        rfl
      rw [Procedure.forEach_cons, Procedure.run_bind_ok hfirst]
      exact hrest
    · rcases List.mem_cons.1 hother with rfl | hother
      · obtain ⟨old, hold, -, hkept⟩ := hstopped.before other d hd
        dsimp only at hold
        rw [hcontrollers, OrderedMap.get_insert_self] at hold
        obtain rfl := Option.some.inj hold
        exact hkept hdead
      · exact hstopped.dead other hother d hd
    · obtain ⟨middle, hmiddle, hsame, hkept⟩ := hstopped.before other d hd
      dsimp only at hmiddle
      rw [hcontrollers] at hmiddle
      obtain ⟨rfl, rfl⟩ | hold := OrderedMap.get_insert_cases _ hmiddle
      · exact ⟨c, hget, hsame.trans hconfig, fun _ => hkept hdead⟩
      · exact ⟨middle, hold, hsame, hkept⟩

/-- What the failure of one component leaves: it and its transforms are dead, the other components are as they were, and no live
controller reads any of their signals. -/
structure FailsWith (ids : List ComponentId) (s s' : ManagedRuntime σ ε) : Prop where
  dead : ∀ id ∈ ids, ∀ c, s'.managed.get id = some c → Dead c
  before : ∀ id c, s'.managed.get id = some c → ∃ old, s.managed.get id = some old ∧ c.definition = old.definition ∧ (Dead old → Dead c)
  keys : s'.managed.keys = s.managed.keys
  others : ∀ id, id ∉ ids → s'.managed.get id = s.managed.get id
  controllers : ∀ id controller, s'.runtime.controllers.get id = some controller → ∀ other ∈ ids, ∀ c,
    s'.managed.get other = some c → controller.config.input = c.signalId → controller.state.live = false

theorem mem_dependents {id other : ComponentId} {signal : SignalId} : other ∈ s.dependents id signal ↔
    other ≠ id ∧ ∃ c, s.managed.get other = some c ∧ c.definition.manifest.kind = .transform signal := by
  simp only [dependents, PublishedComponent.reads, List.mem_map, List.mem_filter, Bool.and_eq_true, decide_eq_true_eq, Prod.exists,
    OrderedMap.mem_entries]
  constructor
  · rintro ⟨_, c, ⟨hget, hne, hreads⟩, rfl⟩
    exact ⟨hne, c, hget, hreads⟩
  · rintro ⟨hne, c, hget, hreads⟩
    exact ⟨other, c, ⟨hget, hne, hreads⟩, rfl⟩

theorem mem_readers {id : ControllerId} {signals : List SignalId} : id ∈ s.readers signals ↔
    ∃ c, s.runtime.controllers.get id = some c ∧ c.config.input ∈ signals ∧ c.state.live = true := by
  simp only [readers, List.mem_map, List.mem_filter, Bool.and_eq_true, List.contains_iff_mem, Prod.exists, OrderedMap.mem_entries]
  constructor
  · rintro ⟨_, c, ⟨hget, hin, hlive⟩, rfl⟩
    exact ⟨c, hget, hin, hlive⟩
  · rintro ⟨c, hget, hin, hlive⟩
    exact ⟨id, c, ⟨hget, hin, hlive⟩, rfl⟩

theorem failComponent_run (A : ComponentExecutor F64 ε) {id : ComponentId} {c : PublishedComponent}
    (hget : s.managed.get id = some c) (now : ℕ) :
    ∃ t, (failComponent A id now).run s = (.ok (), t) ∧ s.FailsWith (id :: s.dependents id c.signalId) t := by
  unfold failComponent
  rw [Procedure.run_get_bind, hget]
  dsimp only
  obtain ⟨s₁, hfirst, hself⟩ := failOne_run A now id s
  rw [Procedure.run_bind_ok hfirst, Procedure.run_get_bind]
  obtain ⟨s₂, hrest, hothers⟩ := failOnes_run A now (s₁.dependents id c.signalId) s₁
  rw [Procedure.run_bind_ok hrest, Procedure.run_get_bind]
  have hboth := hself.trans hothers
  -- failing the component itself leaves the others, and so who reads it
  have hmem : ∀ other, other ∈ [id] ++ s₁.dependents id c.signalId ↔ other ∈ id :: s.dependents id c.signalId := by
    intro other
    simp only [List.singleton_append, List.mem_cons, mem_dependents]
    refine or_congr_right (and_congr_right fun hne => ?_)
    rw [hself.others other (by simpa using hne)]
  obtain ⟨t, hrun, hstopped⟩ := stopReaders_run now (s₂.readers (c.signalId :: s₂.signalsOf (s₁.dependents id c.signalId))) s₂
    fun reader hreader => by
      obtain ⟨controller, hcontroller, -⟩ := mem_readers.1 hreader
      rw [hcontroller]
      rfl
  refine ⟨t, hrun, fun other hother d hd => ?_, fun other d hd => ?_, ?_, fun other hother => ?_, ?_⟩
  · rw [hstopped.managed] at hd
    exact hboth.dead other ((hmem other).2 hother) d hd
  · rw [hstopped.managed] at hd
    exact hboth.before other d hd
  · rw [hstopped.managed, hboth.keys]
  · rw [hstopped.managed]
    exact hboth.others other fun hin => hother ((hmem other).1 hin)
  · intro reader controller hcontroller other hother d hd hinput
    rw [hstopped.managed] at hd
    obtain ⟨old, hold, hconfig, hkept⟩ := hstopped.before reader controller hcontroller
    by_cases hlive : old.state.live = true
    · refine hstopped.dead reader (mem_readers.2 ⟨old, hold, ?_, hlive⟩) controller hcontroller
      rw [← hconfig, hinput]
      rcases List.mem_cons.1 ((hmem other).2 hother) with rfl | hother
      · obtain ⟨before, hbefore, hdefinition, -⟩ := hboth.before other d hd
        rw [hget] at hbefore
        obtain rfl := Option.some.inj hbefore
        have hsignal : d.signalId = c.signalId := by rw [PublishedComponent.signalId, hdefinition, PublishedComponent.signalId]
        rw [hsignal]
        exact List.mem_cons_self
      · refine List.mem_cons_of_mem _ (List.mem_filterMap.2 ⟨other, hother, ?_⟩)
        rw [hd]
        rfl
    · exact hkept (by simpa using hlive)

/-! ### Downstream -/

/-- One component is a transform of another one's signal. -/
def Reads (s : ManagedRuntime σ ε) (id other : ComponentId) : Prop :=
  ∃ c d, s.managed.get id = some c ∧ s.managed.get other = some d ∧ d.definition.manifest.kind = .transform c.signalId

/-- Where the components are flat, everything behind a component reads it directly. -/
theorem Flat.downstream (h : s.Flat) {id other : ComponentId} {c : PublishedComponent} (hget : s.managed.get id = some c)
    (hpath : Relation.ReflTransGen s.Reads id other) : other ∈ id :: s.dependents id c.signalId := by
  induction hpath with
  | refl => exact List.mem_cons_self
  | @tail middle last _ hreads ih =>
    obtain ⟨m, d, hmiddle, hlast, hkind⟩ := hreads
    rcases List.mem_cons.1 ih with rfl | hbetween
    · rw [hget] at hmiddle
      obtain rfl := Option.some.inj hmiddle
      refine List.mem_cons_of_mem _ (mem_dependents.2 ⟨?_, d, hlast, hkind⟩)
      rintro rfl
      rw [hget] at hlast
      obtain rfl := Option.some.inj hlast
      exact (h.reads _ _ _ hget hkind).other rfl
    · -- a transform that a transform reads would be a source
      obtain ⟨-, m', hm', hkind'⟩ := mem_dependents.1 hbetween
      rw [hmiddle] at hm'
      obtain rfl := Option.some.inj hm'
      have hsource := (h.reads last d _ hlast hkind).source middle m hmiddle rfl
      rw [hsource] at hkind'
      cases hkind'

/-- When a component fails, everything behind it fails with it and awaits nothing; every other component is as it was; and no live
controller reads a signal of one that failed. -/
theorem failure_reaches_downstream (M : Platform σ ε) (ops : List (Op σ ε)) (id : ComponentId) (now : ℕ)
    (h : (run M ops).managed.contains id = true) :
    ∃ t, (failComponent M.executor id now).run (run M ops) = (.ok (), t) ∧
      (∀ other c, t.managed.get other = some c → Relation.ReflTransGen (run M ops).Reads id other → Dead c ∧
        ∀ reader controller, t.runtime.controllers.get reader = some controller → controller.config.input = c.signalId →
          controller.state.live = false) ∧
      ∀ other, ¬ Relation.ReflTransGen (run M ops).Reads id other → t.managed.get other = (run M ops).managed.get other := by
  obtain ⟨c, hget⟩ := (OrderedMap.contains_iff _).1 h
  obtain ⟨t, hrun, hfails⟩ := failComponent_run M.executor hget now
  refine ⟨t, hrun, fun other d hd hpath => ?_, fun other hapart => hfails.others other fun hin => hapart ?_⟩
  · have hin := (run_flat M ops).downstream hget hpath
    exact ⟨hfails.dead other hin d hd, fun reader controller hcontroller hinput =>
      hfails.controllers reader controller hcontroller other hin d hd hinput⟩
  · rcases List.mem_cons.1 hin with rfl | hin
    · exact .refl
    · obtain ⟨-, d, hd, hkind⟩ := mem_dependents.1 hin
      exact .single ⟨c, d, hget, hd, hkind⟩

theorem bench_source_takes_its_mean_down :
    ((failComponent bench.executor 7 9).run (run bench meanRun)).2.managed.values.map (fun c => c.state) = [.failed, .failed] ∧
      ∃ t, (failComponent bench.executor 7 9).run (run bench meanRun) = (.ok (), t) ∧
        (∀ other c, t.managed.get other = some c → Relation.ReflTransGen (run bench meanRun).Reads 7 other → Dead c ∧
          ∀ reader controller, t.runtime.controllers.get reader = some controller → controller.config.input = c.signalId →
            controller.state.live = false) ∧
        ∀ other, ¬ Relation.ReflTransGen (run bench meanRun).Reads 7 other → t.managed.get other = (run bench meanRun).managed.get other :=
  ⟨by decide +kernel, failure_reaches_downstream bench meanRun 7 9 (by decide +kernel)⟩

/-! ### Quiescing -/

/-- Nothing is staged or prepared, and no component lives. -/
structure Quiet (s : ManagedRuntime σ ε) : Prop where
  quiesced : s.managedQuiesced = true
  staged : s.staged = none
  prepared : s.prepared = .empty
  dead : ∀ id c, s.managed.get id = some c → Dead c

theorem Quiet.same (h : s.Quiet) (hmanaged : s'.managed = s.managed) (hquiesced : s'.managedQuiesced = true)
    (hstaged : s'.staged = none) (hprepared : s'.prepared = .empty) : s'.Quiet :=
  ⟨hquiesced, hstaged, hprepared, hmanaged ▸ h.dead⟩

/-- Whatever changes, quiesced components are quiet for ever. -/
theorem Change.quiet (h : s.Change s') (hi : s.Quiet) :
    s'.Quiet ∧ s'.submitted = s.submitted ∧ s'.committed = s.committed := by
  have hopen : s.managedQuiesced ≠ false := by rw [hi.quiesced]; simp
  cases h with
  | aside h =>
    refine ⟨hi.same h.managed ?_ ?_ ?_, h.submitted, h.committed⟩
    · rw [h.managedQuiesced, hi.quiesced]
    · rw [h.staged, hi.staged]
    · rw [h.prepared, hi.prepared]
  | installed => exact ⟨hi.same rfl hi.quiesced hi.staged hi.prepared, rfl, rfl⟩
  | staging isOpen => exact absurd isOpen hopen
  | dropped => exact ⟨hi.same rfl hi.quiesced rfl hi.prepared, rfl, rfl⟩
  | retained pending => exact absurd (pending.symm.trans hi.staged) (by simp)
  | @forgotten prepared fewer =>
    refine ⟨hi.same rfl hi.quiesced hi.staged (OrderedMap.ext_get fun id => ?_), rfl, rfl⟩
    cases hp : prepared.get id with
    | none => rfl
    | some p =>
      have hold := fewer id p hp
      rw [hi.prepared] at hold
      cases hold
  | created pending => exact absurd (pending.symm.trans hi.staged) (by simp)
  | replaced isOpen => exact absurd isOpen hopen
  | @failing id c signal now hget =>
    refine ⟨⟨hi.quiesced, hi.staged, hi.prepared, fun other d hd => ?_⟩, rfl, rfl⟩
    obtain ⟨rfl, rfl⟩ | hold := OrderedMap.get_insert_cases _ hd
    · exact ⟨rfl, rfl⟩
    · exact hi.dead other d hold
  | invoked hget live idle isOpen => exact absurd isOpen hopen
  | committed hget decided publishes =>
    obtain ⟨result, -, hawaits, -⟩ := committed_ok decided publishes
    exact absurd (hi.dead _ _ hget).1 hawaits.live
  | quiesced => exact ⟨hi.same rfl rfl rfl rfl, rfl, rfl⟩

theorem path_quiet (h : s.Path s') (hi : s.Quiet) : s'.Quiet ∧ s'.submitted = s.submitted ∧ s'.committed = s.committed := by
  induction h with
  | refl => exact ⟨hi, rfl, rfl⟩
  | tail _ hchange ih =>
    obtain ⟨hquiet, hsubmitted, hcommitted⟩ := hchange.quiet ih.1
    exact ⟨hquiet, hsubmitted.trans ih.2.1, hcommitted.trans ih.2.2⟩

/-- One component after another fails, until all are dead. -/
theorem failAll_run (A : ComponentExecutor F64 ε) (now : ℕ) (ids : List ComponentId) (s : ManagedRuntime σ ε) :
    ∃ t, (Procedure.forEach ids fun id => failComponent A id now).run s = (.ok (), t) ∧
      (∀ id c, t.managed.get id = some c → (id ∈ ids → Dead c) ∧ ∃ old, s.managed.get id = some old ∧ (Dead old → Dead c)) := by
  induction ids generalizing s with
  | nil => exact ⟨s, rfl, fun id c hc => ⟨fun hid => absurd hid List.not_mem_nil, c, hc, fun h => h⟩⟩
  | cons id ids ih =>
    cases hget : s.managed.get id with
    | none =>
      obtain ⟨t, hrest, hdead⟩ := ih s
      refine ⟨t, ?_, fun other d hd => ⟨fun hother => ?_, (hdead other d hd).2⟩⟩
      · have hfirst : (failComponent A id now).run s = (.ok (), s) := by
          unfold failComponent
          rw [Procedure.run_get_bind, hget]
          rfl
        rw [Procedure.forEach_cons, Procedure.run_bind_ok hfirst]
        exact hrest
      · rcases List.mem_cons.1 hother with rfl | hother
        · obtain ⟨old, hold, -⟩ := (hdead other d hd).2
          rw [hget] at hold
          cases hold
        · exact (hdead other d hd).1 hother
    | some c =>
      obtain ⟨s₁, hfirst, hfails⟩ := failComponent_run A hget now
      obtain ⟨t, hrest, hdead⟩ := ih s₁
      refine ⟨t, ?_, fun other d hd => ?_⟩
      · rw [Procedure.forEach_cons, Procedure.run_bind_ok hfirst]
        exact hrest
      · obtain ⟨hin, middle, hmiddle, hkept⟩ := hdead other d hd
        obtain ⟨old, hold, -, hkept'⟩ := hfails.before other middle hmiddle
        refine ⟨fun hother => ?_, old, hold, fun hdying => hkept (hkept' hdying)⟩
        rcases List.mem_cons.1 hother with rfl | hother
        · exact hkept (hfails.dead other List.mem_cons_self middle hmiddle)
        · exact hin hother

/-! ### Who quiesces -/

/-- What a command leaves alone that neither stages nor quiesces. -/
structure Standing (s s' : ManagedRuntime σ ε) : Prop where
  managedQuiesced : s'.managedQuiesced = s.managedQuiesced
  staged : s'.staged = s.staged
  prepared : s'.prepared = s.prepared

instance : Std.Refl (Standing (σ := σ) (ε := ε)) := ⟨fun _ => ⟨rfl, rfl, rfl⟩⟩

instance : IsTrans (ManagedRuntime σ ε) Standing := ⟨fun _ _ _ h h' =>
  ⟨h'.managedQuiesced.trans h.managedQuiesced, h'.staged.trans h.staged, h'.prepared.trans h.prepared⟩⟩

/-- The components are quiesced afterwards where they were before. -/
def Flagged (s s' : ManagedRuntime σ ε) : Prop := s'.managedQuiesced = s.managedQuiesced

instance : Std.Refl (Flagged (σ := σ) (ε := ε)) := ⟨fun _ => rfl⟩

instance : IsTrans (ManagedRuntime σ ε) Flagged := ⟨fun _ _ _ h h' => h'.trans h⟩

theorem moves_standing {α : Type} {x : ManagedStep σ ε α} (h : Moves Aside x) : Moves Standing x :=
  h.mono fun _ _ h => ⟨h.managedQuiesced, h.staged, h.prepared⟩

theorem moves_flagged {α : Type} {x : ManagedStep σ ε α} (h : Moves Standing x) : Moves Flagged x :=
  h.mono fun _ _ h => h.managedQuiesced

theorem aside_flagged {α : Type} {x : ManagedStep σ ε α} (h : Moves Aside x) : Moves Flagged x := moves_flagged (moves_standing h)

theorem still_standing {α : Type} {x : ManagedStep σ ε α} (h : Moves Still x) : Moves Standing x :=
  moves_standing (h.mono fun _ _ h => h.aside)

theorem core_standing {α : Type} (x : Step σ α) : Moves Standing (core x : ManagedStep σ ε α) := fun _ => ⟨rfl, rfl, rfl⟩

theorem store_standing (id : ComponentId) (c : PublishedComponent) : Moves Standing (store id c : ManagedStep σ ε PUnit) :=
  .update fun _ => ⟨rfl, rfl, rfl⟩

theorem failOne_standing (A : ComponentExecutor F64 ε) (now : ℕ) (id : ComponentId) :
    Moves Standing (failOne A now id : ManagedStep σ ε Unit) := by
  refine .bind .get fun s => ?_
  cases s.managed.get id with
  | none => exact .pure ()
  | some c =>
    refine .bind (still_standing (cancelPending_still A c.pending)) fun _ => .bind (store_standing _ _) fun _ => ?_
    cases (c.failing now).signal.latest with
    | none => exact .pure ()
    | some sample =>
      dsimp only
      split_ifs
      · exact .bind (still_standing (capture_still _)) fun _ => .pure ()
      · exact .pure ()

theorem failComponent_standing (A : ComponentExecutor F64 ε) (id : ComponentId) (now : ℕ) :
    Moves Standing (failComponent A id now : ManagedStep σ ε Unit) := by
  refine .bind .get fun s => ?_
  cases s.managed.get id with
  | none => exact .pure ()
  | some c =>
    exact .bind (failOne_standing A now id) fun _ => .bind .get fun _ => .bind (.forEach fun other _ => failOne_standing A now other)
      fun _ => .bind .get fun _ => .forEach fun controller _ => core_standing _

theorem trySubmit_standing (A : ComponentExecutor F64 ε) (job : Invocation F64) :
    Moves Standing (trySubmit A job : ManagedStep σ ε Unit) := by
  intro s
  obtain ⟨error, t, hstill, hrun⟩ | ⟨executor, -, hrun⟩ := trySubmit_cases A job s
  · rw [hrun]
    exact ⟨hstill.aside.managedQuiesced, hstill.aside.staged, hstill.aside.prepared⟩
  · rw [hrun]
    exact ⟨rfl, rfl, rfl⟩

theorem stageComponent_flagged (A : ComponentExecutor F64 ε) (definition : ComponentDefinition F64)
    (replaces : Option ComponentId) (now : ℕ) (prepareOnly : Bool) :
    Moves Flagged (stageComponent A definition replaces now prepareOnly : ManagedStep σ ε ComponentId) :=
  .bind .get fun _ => .guard fun _ => .guard fun _ => .bind (.lift _) fun _ => .bind (moves_flagged (core_standing _)) fun _ =>
    .bind .get fun _ => .bind (.lift _) fun _ => .bind (moves_flagged (trySubmit_standing A _)) fun _ =>
      .bind (.update fun _ => rfl) fun _ => .pure _

theorem invokeComponent_flagged (A : ComponentExecutor F64 ε) (id : ComponentId) (now : ℕ) :
    Moves Flagged (invokeComponent A id now : ManagedStep σ ε Correlation) := by
  refine .bind (moves_flagged (core_standing _)) fun _ => .bind .get fun s => .guard fun _ => ?_
  cases s.managed.get id with
  | none => exact .stop _
  | some c =>
    dsimp only
    split_ifs
    · exact .stop _
    · exact .stop _
    · cases s.captureComponentInput c.definition.manifest now with
      | error error => exact .bind (moves_flagged (failComponent_standing A id now)) fun _ => .stop _
      | ok input =>
        exact .bind .get fun _ => .bind (.lift _) fun job => .bind (moves_flagged (trySubmit_standing A job)) fun _ =>
          .bind (moves_flagged (store_standing _ _)) fun _ => .pure _

theorem commitStep_flagged (A : ComponentExecutor F64 ε) (completion : ComponentCompletion F64) (now : ℕ) :
    Moves Flagged (commitStep A completion now : ManagedStep σ ε Unit) := by
  refine .bind .get fun s => ?_
  dsimp only
  cases s.managed.get completion.correlation.component with
  | none => exact .pure ()
  | some c =>
    dsimp only
    cases c.decideStep s.componentRuntime completion now (fun input => (s.runtime.signal input.signal).bind SignalBuffer.latest) with
    | ignored => exact .pure ()
    | failed => exact moves_flagged (failComponent_standing A _ now)
    | committed value sourceTime next =>
      dsimp only
      cases publishStep c next now sourceTime value with
      | error error => exact moves_flagged (failComponent_standing A _ now)
      | ok published =>
        exact .bind (moves_flagged (store_standing _ _)) fun _ => .bind (.update fun _ => rfl) fun _ =>
          moves_flagged (still_standing (capture_still _))

theorem commitStaged_flagged (A : ComponentExecutor F64 ε) (staged : StagedComponent) (result : ComponentResult F64) (now : ℕ) :
    Moves Flagged (commitStaged A staged result now : ManagedStep σ ε Unit) :=
  (commitStaged_timely A staged result now).mono fun _ _ h => h.managedQuiesced

theorem completeStaged_flagged (A : ComponentExecutor F64 ε) (staged : StagedComponent) (completion : ComponentCompletion F64)
    (now : ℕ) : Moves Flagged (completeStaged A staged completion now : ManagedStep σ ε Unit) := by
  refine .bind (.update fun _ => rfl) fun _ => ?_
  cases completion.timely with
  | false => exact .pure ()
  | true =>
    cases completion.outcome with
    | error error => exact .pure ()
    | ok result =>
      dsimp only
      split_ifs
      · exact .update fun _ => rfl
      · exact .pure ()
      · intro s
        rw [ignoring_snd]
        exact commitStaged_flagged A staged result now s

theorem drain_flagged (A : ComponentExecutor F64 ε) (now n : ℕ) : Moves Flagged (drain A now n : ManagedStep σ ε Unit) := by
  induction n with
  | zero => exact .pure ()
  | succ n ih =>
    refine .bind (moves_flagged (still_standing (tryPoll_still A))) fun answer => ?_
    cases answer with
    | none => exact .pure ()
    | some completion =>
      refine .bind (.bind .get fun s => ?_) fun _ => ih
      cases s.staged.filter fun staged => decide (staged.correlation = completion.correlation) with
      | none => exact commitStep_flagged A completion now
      | some staged => exact completeStaged_flagged A staged completion now

theorem pollComponents_flagged (T : ByteTransport σ) (A : ComponentExecutor F64 ε) (now : ℕ) :
    Moves Flagged (pollComponents T A now : ManagedStep σ ε Unit) := by
  refine .bind (moves_flagged (core_standing _)) fun _ => .bind (.bind .get fun s => ?_) fun _ => .bind .get fun s =>
    .bind (moves_flagged (still_standing (expired_still A _))) fun late =>
      .bind (.forEach fun id _ => moves_flagged (failComponent_standing A id now)) fun _ => drain_flagged A now 2
  cases s.staged with
  | none => exact .pure ()
  | some staged =>
    refine .bind (moves_flagged (still_standing (tryExpire_still A staged.correlation))) fun late => ?_
    cases late with
    | false => exact .pure ()
    | true => exact .bind (.update fun _ => rfl) fun _ => moves_flagged (still_standing (cancel_still A _))

theorem commitPreparedComponents_flagged (A : ComponentExecutor F64 ε) (components : List ComponentId) (now : ℕ) :
    Moves Flagged (commitPreparedComponents A components now : ManagedStep σ ε ℕ) :=
  .guard fun _ => .bind .get fun _ => .bind (.lift _) fun _ => .bind (.forEach fun _ _ => commitStaged_flagged A _ _ now) fun _ =>
    .bind (.update fun _ => rfl) fun _ => .pure _

/-- Only one command quiesces. -/
theorem step_flagged (M : Platform σ ε) (s : ManagedRuntime σ ε) (op : Op σ ε) (h : ∀ now, op ≠ .quiesceManaged now) :
    (step M s op).managedQuiesced = s.managedQuiesced := by
  have hdiscard : ∀ {α : Type} {x : ManagedStep σ ε α}, Moves Flagged x → Moves Flagged (discarding x) := fun h =>
    .bind h fun _ => .pure ()
  suffices hmoves : Moves Flagged (perform M op) from hmoves s
  by_cases hop : op.manages = false
  · exact aside_flagged (perform_aside M hop)
  cases op with
  | stageComponent definition replaces now => exact hdiscard (stageComponent_flagged _ _ _ _ _)
  | prepareComponentReplacement definition replaces now => exact hdiscard (stageComponent_flagged _ _ _ _ _)
  | commitPreparedComponents components now => exact hdiscard (commitPreparedComponents_flagged _ _ _)
  | discardPreparedComponents => exact .update fun _ => rfl
  | invokeComponent id now => exact hdiscard (invokeComponent_flagged _ _ _)
  | pollComponents now => exact pollComponents_flagged _ _ _
  | quiesceManaged now => exact absurd rfl (h now)
  | installComponentExecutor executor identity => exact .bind .get fun _ => .guard fun _ => .update fun _ => rfl
  | _ => exact absurd rfl hop

/-- Quiescing stops at the clock, or leaves quiet components. -/
theorem quiesceManaged_cases (A : ComponentExecutor F64 ε) (now : ℕ) (hquiet : s.managedQuiesced = true → s.Quiet) :
    (∃ error runtime, (quiesceManaged A now).run s = (.error error, { s with runtime := runtime })) ∨
      ∃ t, (quiesceManaged A now).run s = (.ok (), t) ∧ t.Quiet := by
  unfold quiesceManaged
  obtain ⟨error, t, hrun, heq⟩ | ⟨_, t, hrun, heq⟩ := Procedure.bind_cases (core (Runtime.checkOutputTime now) : ManagedStep σ ε Unit)
    (fun _ => _) s
  · rw [heq]
    obtain ⟨-, rfl⟩ := Prod.mk.inj hrun
    exact .inl ⟨error, _, rfl⟩
  · rw [heq]
    obtain ⟨runtime, -, rfl⟩ := core_ok hrun
    rw [Procedure.run_get_bind]
    dsimp only
    by_cases hquiesced : s.managedQuiesced = true
    · rw [if_pos hquiesced]
      exact .inr ⟨_, rfl, (hquiet hquiesced).same rfl hquiesced (hquiet hquiesced).staged (hquiet hquiesced).prepared⟩
    · rw [if_neg hquiesced, Procedure.run_modify_bind]
      obtain ⟨executor, -, hcancel⟩ := cancelPending_ok A (s.staged.map StagedComponent.correlation)
        { s with runtime := runtime, managedQuiesced := true, staged := none, prepared := .empty }
      rw [Procedure.run_bind_ok hcancel]
      generalize hs₁ : ({ s with
        runtime := runtime, managedQuiesced := true, staged := none, prepared := .empty, executor := executor } :
          ManagedRuntime σ ε) = s₁
      have hmanaged : s₁.managed = s.managed := by rw [← hs₁]
      obtain ⟨u, hfailed, hdead⟩ := failAll_run A now s.managed.keys s₁
      have hstanding : s₁.Standing u := by
        have hmoves := Moves.forEach (R := Standing) (fun id (_ : id ∈ s.managed.keys) => failComponent_standing A id now) s₁
        rwa [hfailed] at hmoves
      rw [Procedure.run_bind_ok hfailed]
      subst hs₁
      refine .inr ⟨_, rfl, hstanding.managedQuiesced, hstanding.staged, hstanding.prepared, fun id c hc => ?_⟩
      obtain ⟨hin, old, hold, -⟩ := hdead id c hc
      refine hin (s.managed.mem_keys.2 ?_)
      rw [← hmanaged, hold]
      rfl

/-- In every run, quiesced components are quiet. -/
theorem run_quiet (M : Platform σ ε) (ops : List (Op σ ε)) : (run M ops).managedQuiesced = true → (run M ops).Quiet := by
  have hstart : (empty σ ε).Sound ∧ ((empty σ ε).managedQuiesced = true → (empty σ ε).Quiet) :=
    ⟨empty_sound, fun h => (by cases h)⟩
  refine (History.Stable.after (I := fun s => s.Sound ∧ (s.managedQuiesced = true → s.Quiet))
    (fun s op hs => ⟨path_sound (step_evolves M s op hs.1) hs.1, fun hquiesced => ?_⟩) hstart ops).2
  by_cases hop : ∃ now, op = .quiesceManaged now
  · obtain ⟨now, rfl⟩ := hop
    have hstep : step M s (.quiesceManaged now) = ((quiesceManaged M.executor now).run s).2 := rfl
    rw [hstep] at hquiesced ⊢
    obtain ⟨error, runtime, hrun⟩ | ⟨t, hrun, hquiet⟩ := quiesceManaged_cases M.executor now hs.2
    · rw [hrun] at hquiesced ⊢
      have hbefore := hs.2 hquiesced
      exact hbefore.same rfl hbefore.quiesced hbefore.staged hbefore.prepared
    · rw [hrun]
      exact hquiet
  · rw [step_flagged M s op fun now heq => hop ⟨now, heq⟩] at hquiesced
    exact (path_quiet (step_evolves M s op hs.1) (hs.2 hquiesced)).1

/-- Once quiescing was accepted, every component has failed and awaits nothing, and nothing is staged or prepared; whatever commands
come after it, this stays so, and no job is submitted and no step committed any more. -/
theorem quiesced_for_ever (M : Platform σ ε) (ops later : List (Op σ ε)) (now : ℕ)
    (h : ((perform M (.quiesceManaged now)).run (run M ops)).1 = .ok ()) :
    (run M (ops ++ .quiesceManaged now :: later)).Quiet ∧
      (run M (ops ++ .quiesceManaged now :: later)).submitted = (run M (ops ++ [.quiesceManaged now])).submitted ∧
      (run M (ops ++ .quiesceManaged now :: later)).committed = (run M (ops ++ [.quiesceManaged now])).committed := by
  have hquiet : (run M (ops ++ [.quiesceManaged now])).Quiet := by
    rw [run, History.after_append]
    show (step M (run M ops) (.quiesceManaged now)).Quiet
    have hstep : step M (run M ops) (.quiesceManaged now) = ((perform M (.quiesceManaged now)).run (run M ops)).2 := rfl
    rw [hstep]
    obtain ⟨error, runtime, hrun⟩ | ⟨t, hrun, hquiet⟩ := quiesceManaged_cases M.executor now (run_quiet M ops)
    · rw [show (perform M (.quiesceManaged now)).run (run M ops) = _ from hrun] at h
      cases h
    · rw [show (perform M (.quiesceManaged now)).run (run M ops) = _ from hrun]
      exact hquiet
  rw [List.append_cons, run, History.after_append]
  exact path_quiet (after_path M (run_sound M _) later) hquiet

theorem quiesced_bench_answers_no_more :
    (run bench (meanRun ++ .quiesceManaged 9 :: [.invokeComponent 7 10, .pollComponents 11])).Quiet ∧
      (run bench (meanRun ++ .quiesceManaged 9 :: [.invokeComponent 7 10, .pollComponents 11])).submitted =
        (run bench (meanRun ++ [.quiesceManaged 9])).submitted ∧
      (run bench (meanRun ++ .quiesceManaged 9 :: [.invokeComponent 7 10, .pollComponents 11])).committed =
        (run bench (meanRun ++ [.quiesceManaged 9])).committed :=
  quiesced_for_ever bench meanRun [.invokeComponent 7 10, .pollComponents 11] 9 (by decide +kernel)

end ManagedRuntime
end LabRuntime
