import LabRuntime.Managed.Failure

/-! Batches of prepared replacements: an accepted batch replaces the components that it names, each by what was prepared for it
and one generation later, and leaves the version of every other component alone. -/

namespace LabRuntime.ManagedRuntime

open Procedure (Moves)

variable {σ ε : Type} {s s' s'' : ManagedRuntime σ ε}

/-! ### Versions -/

/-- The same version of a component, which may have failed in between. -/
structure SameVersion (c c' : PublishedComponent) : Prop where
  definition : c'.definition = c.definition
  generation : c'.generation = c.generation
  revision : c'.revision = c.revision
  committed : c'.committed = c.committed

theorem SameVersion.trans {c c' c'' : PublishedComponent} (h : SameVersion c c') (h' : SameVersion c' c'') : SameVersion c c'' :=
  ⟨h'.definition.trans h.definition, h'.generation.trans h.generation, h'.revision.trans h.revision,
    h'.committed.trans h.committed⟩

/-- This component keeps its version, and what is prepared stays. -/
structure KeepsVersion (id : ComponentId) (s s' : ManagedRuntime σ ε) : Prop where
  version : ∀ c, s.managed.get id = some c → ∃ c', s'.managed.get id = some c' ∧ SameVersion c c'
  prepared : s'.prepared = s.prepared

instance (id : ComponentId) : Std.Refl (KeepsVersion (σ := σ) (ε := ε) id) := ⟨fun _ => ⟨fun c hc => ⟨c, hc, rfl, rfl, rfl, rfl⟩, rfl⟩⟩

instance (id : ComponentId) : IsTrans (ManagedRuntime σ ε) (KeepsVersion id) := ⟨fun _ _ _ h h' =>
  ⟨fun c hc => by
    obtain ⟨c', hc', hsame⟩ := h.version c hc
    obtain ⟨c'', hc'', hsame'⟩ := h'.version c' hc'
    exact ⟨c'', hc'', hsame.trans hsame'⟩, h'.prepared.trans h.prepared⟩⟩

theorem still_keeps {α : Type} {x : ManagedStep σ ε α} (id : ComponentId) (h : Moves Still x) : Moves (KeepsVersion id) x :=
  h.mono fun s s' h => ⟨fun c hc => ⟨c, by rw [h.aside.managed, hc], rfl, rfl, rfl, rfl⟩, h.aside.prepared⟩

theorem core_keeps {α : Type} (id : ComponentId) (x : Step σ α) : Moves (KeepsVersion id) (core x : ManagedStep σ ε α) :=
  fun _ => ⟨fun c hc => ⟨c, hc, rfl, rfl, rfl, rfl⟩, rfl⟩

/-- Another state of a component that is there. -/
theorem stored_keeps {id other : ComponentId} {c c' : PublishedComponent} (hget : s.managed.get other = some c)
    (hsame : SameVersion c c') : s.KeepsVersion id ((store other c').run s).2 := by
  refine ⟨fun d hd => ?_, rfl⟩
  show ∃ d', (s.managed.insert other c').get id = some d' ∧ SameVersion d d'
  rw [OrderedMap.get_insert]
  split_ifs with heq
  · subst heq
    rw [hget] at hd
    obtain rfl := Option.some.inj hd
    exact ⟨c', rfl, hsame⟩
  · exact ⟨d, hd, rfl, rfl, rfl, rfl⟩

theorem failReplacedDependents_keeps (A : ComponentExecutor F64 ε) (id : ComponentId) (now : ℕ) (ids : List ComponentId) :
    Moves (KeepsVersion id) (failReplacedDependents A now ids : ManagedStep σ ε (List ManagedFact)) := by
  induction ids with
  | nil => exact .pure []
  | cons other ids ih =>
    refine .bind (fun s => ?_) fun facts => .bind ih fun more => .pure _
    unfold failReplacedDependent
    rw [Procedure.run_get_bind]
    cases hget : s.managed.get other with
    | none => exact refl_of (KeepsVersion id) s
    | some c =>
      dsimp only
      obtain ⟨executor, hport, hrun⟩ := cancelPending_ok A c.pending s
      rw [Procedure.run_bind_ok hrun]
      have hcancelled : s.KeepsVersion id { s with executor := executor } := ⟨fun d hd => ⟨d, hd, rfl, rfl, rfl, rfl⟩, rfl⟩
      refine trans_of (KeepsVersion id) hcancelled ?_
      have hget : ({ s with executor := executor } : ManagedRuntime σ ε).managed.get other = some c := hget
      cases c.signal.latest with
      | none => exact Moves.bind_from (stored_keeps hget ⟨rfl, rfl, rfl, rfl⟩) fun _ => .pure []
      | some last =>
        exact Moves.bind_from (stored_keeps hget ⟨rfl, rfl, rfl, rfl⟩) fun _ => .bind (.lift _) fun _ => .pure _

theorem quiesceDependents_keeps (A : ComponentExecutor F64 ε) (id : ComponentId) (staged : StagedComponent) (replaced : ComponentId)
    (now : ℕ) : Moves (KeepsVersion id) (quiesceDependents A staged replaced now : ManagedStep σ ε (List ManagedFact)) :=
  .bind .get fun _ => .bind (.lift _) fun old => .bind (.forEach fun _ _ => core_keeps id _) fun _ =>
    .bind (still_keeps id (cancelPending_still A old.pending)) fun _ => failReplacedDependents_keeps A id now _

/-! ### One replacement -/

/-- What a replacement makes of a component. -/
structure IsReplacement (staged : StagedComponent) (result : ComponentResult F64) (c : PublishedComponent) : Prop where
  definition : c.definition = staged.definition
  generation : c.generation = staged.correlation.generation
  revision : c.revision = 0
  committed : c.committed = result.state

theorem IsReplacement.kept {staged : StagedComponent} {result : ComponentResult F64} {c c' : PublishedComponent}
    (h : IsReplacement staged result c) (hsame : SameVersion c c') : IsReplacement staged result c' :=
  ⟨hsame.definition.trans h.definition, hsame.generation.trans h.generation, hsame.revision.trans h.revision,
    hsame.committed.trans h.committed⟩

theorem captured_ok {facts : List ManagedFact} {u : Unit} (h : (Procedure.forEach facts capture).run s = (.ok u, s')) : s.Still s' := by
  have hmoves := Moves.forEach (R := Still) (fun fact (_ : fact ∈ facts) => capture_still fact) s
  rwa [h] at hmoves

/-- A replacement that ended has replaced its component, and no other. -/
theorem commitStaged_replaces (A : ComponentExecutor F64 ε) {staged : StagedComponent} {id : ComponentId}
    (hreplaces : staged.replaces = some id) (hown : staged.definition.manifest.id = id) {result : ComponentResult F64} {now : ℕ} {u : Unit}
    (h : (commitStaged A staged result now).run s = (.ok u, s')) :
    (∃ c, s'.managed.get id = some c ∧ IsReplacement staged result c) ∧ (∀ other, other ≠ id → s.KeepsVersion other s') ∧
      s'.prepared = s.prepared := by
  unfold commitStaged at h
  rw [hreplaces] at h
  dsimp only at h
  obtain ⟨_, s₁, hvalid, h⟩ := Procedure.bind_ok.1 h
  obtain ⟨-, rfl⟩ := Prod.mk.inj hvalid
  obtain ⟨facts, t, hquiesced, h⟩ := Procedure.bind_ok.1 h
  obtain ⟨descriptor, t₁, hdescribed, h⟩ := Procedure.bind_ok.1 h
  obtain ⟨-, rfl⟩ := Prod.mk.inj hdescribed
  obtain ⟨kept, hold, hget, hseen, -⟩ := (quiesceDependents_spares A staged id now).2 facts t hquiesced
  obtain ⟨failure, hretained⟩ := retainedSignal_some hget hseen staged.definition.manifest
  rw [Procedure.run_bind_ok hretained] at h
  dsimp only at h
  rw [Procedure.run_bind_ok (store_run _ _ _), hown] at h
  have hcaptured := captured_ok h
  have hmanaged : s'.managed = (t.managed.remove id).insert id _ := hcaptured.aside.managed
  rw [OrderedMap.insert_remove] at hmanaged
  have hbefore : ∀ other, s.KeepsVersion other t := fun other => by
    have hmoves := quiesceDependents_keeps A other staged id now s
    rwa [hquiesced] at hmoves
  have hprepared : s'.prepared = t.prepared := hcaptured.aside.prepared
  refine ⟨⟨_, by rw [hmanaged, OrderedMap.get_insert_self], rfl, rfl, rfl, rfl⟩, fun other hne => ?_,
    hprepared.trans (hbefore id).prepared⟩
  refine trans_of (KeepsVersion other) (hbefore other) ⟨fun c hc => ⟨c, ?_, rfl, rfl, rfl, rfl⟩, hprepared⟩
  rw [hmanaged, OrderedMap.get_insert_of_ne _ hne, hc]

/-! ### Batches -/

theorem commitBatch_replaces (A : ComponentExecutor F64 ε) (now : ℕ) {ids : List ComponentId} {batch : List PreparedComponent}
    (hbatch : List.Forall₂ (fun id p => p.staged.replaces = some id ∧ p.staged.definition.manifest.id = id) ids batch)
    (hnodup : ids.Nodup) {u : Unit}
    (h : (Procedure.forEach batch fun p => commitStaged A p.staged p.result now).run s = (.ok u, s')) :
    List.Forall₂ (fun id p => ∃ c, s'.managed.get id = some c ∧ IsReplacement p.staged p.result c) ids batch ∧
      (∀ other, other ∉ ids → s.KeepsVersion other s') ∧ s'.prepared = s.prepared := by
  induction hbatch generalizing s with
  | nil =>
    obtain ⟨-, rfl⟩ := Prod.mk.inj h
    exact ⟨.nil, fun other _ => refl_of (KeepsVersion other) s, rfl⟩
  | @cons id p ids batch hp hrest ih =>
    obtain ⟨hnew, hnodup⟩ := List.nodup_cons.1 hnodup
    rw [Procedure.forEach_cons] at h
    obtain ⟨_, t, hfirst, h⟩ := Procedure.bind_ok.1 h
    obtain ⟨⟨c, hc, hreplacement⟩, hothers, hprepared⟩ := commitStaged_replaces A hp.1 hp.2 hfirst
    obtain ⟨hreplaced, hkept, hprepared'⟩ := ih hnodup h
    obtain ⟨c', hc', hsame⟩ := (hkept id hnew).version c hc
    refine ⟨.cons ⟨c', hc', hreplacement.kept hsame⟩ hreplaced, fun other hother => ?_, hprepared'.trans hprepared⟩
    rw [List.mem_cons, not_or] at hother
    exact trans_of (KeepsVersion other) (hothers other hother.1) (hkept other hother.2)

/-- An accepted batch names different components, and each has one prepared that fits it. -/
theorem checkBatch_prepared {now : ℕ} {seen components : List ComponentId} {batch : List PreparedComponent}
    (h : s.checkBatch now seen components = .ok batch) :
    components.Nodup ∧ (∀ id ∈ components, id ∉ seen) ∧ List.Forall₂ (fun id p => ∃ q old, s.prepared.get id = some q ∧
      s.managed.get id = some old ∧ old.generation + 1 = p.staged.correlation.generation ∧
        p.staged.definition = q.staged.definition ∧ p.staged.replaces = q.staged.replaces ∧ p.result = q.result) components batch := by
  induction components generalizing seen batch with
  | nil =>
    obtain rfl := Except.ok.inj h
    exact ⟨.nil, by simp, .nil⟩
  | cons id ids ih =>
    unfold checkBatch at h
    obtain ⟨hnew, h⟩ := Checks.reject_bind.1 h
    cases hprepared : s.prepared.get id with
    | none => simp [hprepared] at h
    | some q =>
      rw [hprepared] at h
      obtain ⟨_, -, h⟩ := Checks.bind_ok.1 h
      obtain ⟨_, -, h⟩ := Checks.bind_ok.1 h
      cases hold : s.managed.get id with
      | none => simp [hold] at h
      | some old =>
        rw [hold] at h
        obtain ⟨hgeneration, h⟩ := Checks.reject_bind.1 h
        obtain ⟨rest, hrest, h⟩ := Checks.bind_ok.1 h
        obtain rfl := Checks.pure_ok.1 h
        simp only [not_or, not_not] at hgeneration
        obtain ⟨hsum, -⟩ := checkedAdd_eq_some.1 hgeneration.1
        obtain ⟨hnodup, hunseen, hall⟩ := ih hrest
        refine ⟨List.nodup_cons.2 ⟨fun hid => hunseen id hid List.mem_cons_self, hnodup⟩, fun other hother => ?_,
          .cons ⟨q, old, hprepared, hold, hsum.symm, rfl, rfl, rfl⟩ hall⟩
        rcases List.mem_cons.1 hother with rfl | hother
        · exact hnew
        · exact fun hin => hunseen other hother (List.mem_cons_of_mem _ hin)

theorem forall₂_both {α β : Type} {P Q : α → β → Prop} {xs : List α} {ys : List β} (h : List.Forall₂ P xs ys)
    (h' : List.Forall₂ Q xs ys) : ∀ x ∈ xs, ∃ y, P x y ∧ Q x y := by
  induction h with
  | nil => simp
  | @cons x y xs ys hP _ ih =>
    obtain ⟨hQ, hrest⟩ := List.forall₂_cons.1 h'
    intro z hz
    rcases List.mem_cons.1 hz with rfl | hz
    · exact ⟨y, hP, hQ⟩
    · exact ih hrest z hz

/-- An accepted batch replaces every component that it names, once, by what was prepared for it and one generation later; nothing
is prepared for it any more; and every other component keeps its version and what is prepared for it. -/
theorem commitPrepared_replaces (M : Platform σ ε) (ops : List (Op σ ε)) (components : List ComponentId) (now n : ℕ)
    (t : ManagedRuntime σ ε) (h : (commitPreparedComponents M.executor components now).run (run M ops) = (.ok n, t)) :
    n = components.length ∧ components.Nodup ∧
      (∀ id ∈ components, ∃ p old c, (run M ops).prepared.get id = some p ∧ (run M ops).managed.get id = some old ∧
        t.managed.get id = some c ∧ c.definition = p.staged.definition ∧ c.committed = p.result.state ∧ c.revision = 0 ∧
          c.generation = old.generation + 1 ∧ t.prepared.get id = none) ∧
      ∀ id, id ∉ components → (∀ c, (run M ops).managed.get id = some c → ∃ c', t.managed.get id = some c' ∧ SameVersion c c') ∧
        t.prepared.get id = (run M ops).prepared.get id := by
  have hs := run_sound M ops
  generalize run M ops = s at h hs ⊢
  unfold commitPreparedComponents at h
  split_ifs at h
  · cases h
  rw [Procedure.run_get_bind] at h
  obtain ⟨batch, s₁, hchecked, h⟩ := Procedure.bind_ok.1 h
  obtain ⟨hbatched, rfl⟩ := Prod.mk.inj hchecked
  obtain ⟨_, t₁, hrun, h⟩ := Procedure.bind_ok.1 h
  rw [Procedure.run_modify_bind] at h
  obtain ⟨hn, rfl⟩ := Prod.mk.inj h
  obtain ⟨hnodup, -, hall⟩ := checkBatch_prepared hbatched
  have hbatch : List.Forall₂ (fun id p => p.staged.replaces = some id ∧ p.staged.definition.manifest.id = id) components batch :=
    hall.imp fun id p hp => by
      obtain ⟨q, old, hq, -, -, hdefinition, hreplaces, -⟩ := hp
      obtain ⟨hstageable, hid⟩ := hs.prepared id q hq
      exact ⟨hreplaces.trans hid, hdefinition ▸ (hstageable.kept id hid).1⟩
  obtain ⟨hreplaced, hkept, hprepared⟩ := commitBatch_replaces M.executor now hbatch hnodup hrun
  refine ⟨(Except.ok.inj hn).symm, hnodup, fun id hid => ?_, fun id hid => ⟨(hkept id hid).version, ?_⟩⟩
  · obtain ⟨p, ⟨q, old, hq, hold, hgeneration, hdefinition, -, hresult⟩, c, hc, hreplacement⟩ := forall₂_both hall hreplaced id hid
    refine ⟨q, old, c, hq, hold, hc, hreplacement.definition.trans hdefinition, hreplacement.committed.trans (by rw [hresult]),
      hreplacement.revision, hreplacement.generation.trans hgeneration.symm, ?_⟩
    dsimp only
    rw [OrderedMap.get_retain]
    simp [hid]
  · dsimp only
    rw [OrderedMap.get_retain, hprepared]
    cases s.prepared.get id with
    | none => rfl
    | some p => simp [hid]

/-- The second generation of the source of the bench is initialized. -/
def secondSource : List (Op Unit (List (Invocation F64))) :=
  meanRun ++ [.prepareComponentReplacement benchSource 7 9, .pollComponents 10]

theorem eq_mk_of_fst {α β : Type} {x : α × β} {a : α} (h : x.1 = a) : x = (a, x.2) := Prod.ext h rfl

theorem bench_source_replaced :
    ∃ t, (commitPreparedComponents bench.executor [7] 11).run (run bench secondSource) = (.ok 1, t) ∧
      (∃ p old c, (run bench secondSource).prepared.get 7 = some p ∧ (run bench secondSource).managed.get 7 = some old ∧
        t.managed.get 7 = some c ∧ c.definition = p.staged.definition ∧ c.committed = p.result.state ∧ c.revision = 0 ∧
          c.generation = old.generation + 1 ∧ t.prepared.get 7 = none) := by
  have hrun : (commitPreparedComponents bench.executor [7] 11).run (run bench secondSource) =
      (.ok 1, ((commitPreparedComponents bench.executor [7] 11).run (run bench secondSource)).2) :=
    eq_mk_of_fst (by decide +kernel)
  exact ⟨_, hrun, (commitPrepared_replaces bench secondSource [7] 11 1 _ hrun).2.2.1 7 (by decide)⟩

end LabRuntime.ManagedRuntime
