import LabRuntime.Runtime.Core

/-! The calls of the owner as moves of its core. Most leave the recording gate alone, which `Keeps` says beside
the path; the calls on the gate itself only evolve. -/

namespace LabRuntime.Runtime

open Core (Inv Path Micro)

variable {σ : Type} {P : Premises} {s s' : Runtime σ}

/-- Whatever the call did, it is a path of moves. -/
def Evolves (P : Premises) (s s' : Runtime σ) : Prop := Inv P s.core → Path P s.core s'.core

/-- The same, with the recording gate left alone. -/
def Keeps (P : Premises) (s s' : Runtime σ) : Prop := s'.requiredRecording = s.requiredRecording ∧ Evolves P s s'

/-- The call is none of the core's business. -/
def SameCore (s s' : Runtime σ) : Prop := s'.core = s.core

instance : Std.Refl (Evolves (σ := σ) P) := ⟨fun _ _ => .refl⟩

instance : IsTrans (Runtime σ) (Evolves P) := ⟨fun _ _ _ h h' hinv => (h hinv).trans (h' ((h hinv).inv hinv))⟩

instance : Std.Refl (Keeps (σ := σ) P) := ⟨fun _ => ⟨rfl, fun _ => .refl⟩⟩

instance : IsTrans (Runtime σ) (Keeps P) := ⟨fun _ _ _ h h' => ⟨h'.1.trans h.1, trans_of (Evolves P) h.2 h'.2⟩⟩

instance : Std.Refl (SameCore (σ := σ)) := ⟨fun _ => rfl⟩

instance : IsTrans (Runtime σ) SameCore := ⟨fun _ _ _ h h' => h'.trans h⟩

theorem Evolves.micro (h : Inv P s.core → Micro P s.core s'.core) : Evolves P s s' := fun hinv => .single (h hinv)

theorem Evolves.inv (h : Evolves P s s') (hinv : Inv P s.core) : Inv P s'.core := (h hinv).inv hinv

theorem SameCore.keeps (h : SameCore s s') : Keeps P s s' := by
  refine ⟨congrArg Core.gate h, fun _ => ?_⟩
  rw [show s'.core = s.core from h]
  exact .refl

theorem SameCore.evolves (h : SameCore s s') : Evolves P s s' := h.keeps.2

theorem Keeps.micro (hgate : s'.requiredRecording = s.requiredRecording)
    (h : Inv P s.core → Micro P s.core s'.core) : Keeps P s s' := ⟨hgate, .micro h⟩

/-- A step whose state is the core's business nowhere. -/
theorem moves_keeps {α : Type} {x : Step σ α} (h : Procedure.Moves SameCore x) : Procedure.Moves (Keeps P) x :=
  h.mono fun _ _ h => h.keeps

theorem moves_evolves {α : Type} {x : Step σ α} (h : Procedure.Moves (Keeps P) x) : Procedure.Moves (Evolves P) x :=
  h.mono fun _ _ h => h.2

/-! ### Results handed on -/

theorem run_trying {α : Type} (x : Step σ α) (s : Runtime σ) :
    (trying x).run s = match x.run s with
      | (.ok a, s) => (.ok (.ok a), s)
      | (.error (.rejected error), s) => (.ok (.error error), s)
      | (.error .panicked, s) => (.error .panicked, s) := rfl

theorem trying_snd {α : Type} (x : Step σ α) (s : Runtime σ) : ((trying x).run s).2 = (x.run s).2 := by
  rw [run_trying]
  rcases x.run s with ⟨(_ | _) | _, _⟩ <;> rfl

theorem trying_ok {α : Type} {x : Step σ α} {a : α} (h : (trying x).run s = (.ok (.ok a), s')) : x.run s = (.ok a, s') := by
  rw [run_trying] at h
  rcases hx : x.run s with ⟨(_ | _) | b, t⟩ <;> rw [hx] at h <;> cases h
  rfl

variable {R : Runtime σ → Runtime σ → Prop}

theorem trying_moves {α : Type} {x : Step σ α} (h : Procedure.Moves R x) : Procedure.Moves R (trying x) := fun s => by
  rw [trying_snd]
  exact h s

theorem ignoring_snd {α : Type} (x : Step σ α) (s : Runtime σ) : ((ignoring x).run s).2 = (x.run s).2 := by
  unfold ignoring
  rw [← trying_snd x s, Procedure.run_bind]
  rcases (trying x).run s with ⟨_ | _, _⟩ <;> rfl

theorem ignoring_moves {α : Type} {x : Step σ α} (h : Procedure.Moves R x) : Procedure.Moves R (ignoring x) := fun s => by
  rw [ignoring_snd]
  exact h s

theorem attempt_run {α : Type} (result : Except Error α) (s : Runtime σ) : ((attempt result : Step σ α).run s).2 = s := by
  cases result <;> rfl

theorem attempt_ok {α : Type} {result : Except Error α} {a : α} (h : (attempt result : Step σ α).run s = (.ok a, s')) :
    result = .ok a ∧ s' = s := by
  cases result with
  | error e => cases h
  | ok b =>
    obtain ⟨hb, hs⟩ := Prod.mk.inj h
    exact ⟨congrArg _ (Except.ok.inj hb), hs.symm⟩

theorem attempt_keeps {α : Type} [Std.Refl R] (result : Except Error α) : Procedure.Moves R (attempt result : Step σ α) := fun s => by
  rw [attempt_run]
  exact refl_of R s

/-! ### The recording gate -/

theorem record_same (f : FactOutbox → FactOutbox) : Procedure.Moves SameCore (record f : Step σ PUnit) := .update fun _ => rfl

theorem syncRecordingOutputContext_core (s : Runtime σ) (actuator : ActuatorId) :
    (s.syncRecordingOutputContext actuator).core = s.core := by
  unfold syncRecordingOutputContext
  cases s.outputs.get actuator <;> rfl

theorem foldl_sync_core (actuators : List ActuatorId) (s : Runtime σ) :
    (actuators.foldl syncRecordingOutputContext s).core = s.core := by
  induction actuators generalizing s with
  | nil => rfl
  | cons actuator actuators ih => exact (ih _).trans (s.syncRecordingOutputContext_core actuator)

/-- Failing the live controllers of a list leaves everything but the registry. -/
theorem failLive_fold (now : ℕ) (ids : List ControllerId) (s : Runtime σ) :
    ∃ controllers, (ids.foldl (failLiveController now) s).core = { s.core with controllers := controllers } ∧
      (ids.foldl (failLiveController now) s).outputs = s.outputs ∧
      ∀ id x', controllers.get id = some x' → ∃ x, s.controllers.get id = some x ∧
        x' = if id ∈ ids ∧ x.state.live = true then x.fail else x := by
  induction ids generalizing s with
  | nil => exact ⟨s.controllers, rfl, rfl, fun id x' hget => ⟨x', hget, by simp⟩⟩
  | cons i ids ih =>
    have hone : ∃ controllers, (failLiveController now s i).core = { s.core with controllers := controllers } ∧
        (failLiveController now s i).outputs = s.outputs ∧ (failLiveController now s i).controllers = controllers ∧
        ∀ id x', controllers.get id = some x' → ∃ x, s.controllers.get id = some x ∧
          x' = if id = i ∧ x.state.live = true then x.fail else x := by
      unfold failLiveController
      cases hi : s.controllers.get i with
      | none =>
        refine ⟨s.controllers, rfl, rfl, rfl, fun id x' hget => ⟨x', hget, ?_⟩⟩
        rw [if_neg]
        rintro ⟨rfl, -⟩
        cases hi.symm.trans hget
      | some y =>
        dsimp only
        split_ifs with hlive
        · refine ⟨s.controllers.insert i y.fail, rfl, rfl, rfl, fun id x' hget => ?_⟩
          rw [OrderedMap.get_insert] at hget
          split_ifs at hget with hid
          · exact ⟨y, hid ▸ hi, by simp [hid, hlive, Option.some.inj hget]⟩
          · exact ⟨x', hget, by simp [hid]⟩
        · refine ⟨s.controllers, rfl, rfl, rfl, fun id x' hget => ⟨x', hget, ?_⟩⟩
          rw [if_neg]
          rintro ⟨rfl, hl⟩
          obtain rfl := Option.some.inj (hi.symm.trans hget)
          exact hlive hl
    obtain ⟨first, hcore, houts, hctl, hfirst⟩ := hone
    obtain ⟨controllers, hcore', houts', hrest⟩ := ih (failLiveController now s i)
    refine ⟨controllers, hcore'.trans (by rw [hcore]), houts'.trans houts, fun id x' hget => ?_⟩
    obtain ⟨y, hy, rfl⟩ := hrest id x' hget
    rw [hctl] at hy
    obtain ⟨x, hx, rfl⟩ := hfirst id y hy
    refine ⟨x, hx, ?_⟩
    by_cases hlive : x.state.live = true
    · have hdead : x.fail.state.live = false := rfl
      by_cases hi : id = i <;> simp [hi, hlive, hdead]
    · simp [hlive]

/-- Tripping the outputs of a list leaves everything but the authorities. -/
theorem trip_fold (now : ℕ) (actuators : List ActuatorId) (hnodup : actuators.Nodup) (s : Runtime σ) :
    ∃ outputs, (actuators.foldl (tripOutput now) s).core = { s.core with outputs := outputs } ∧
      ∀ k a', outputs.get k = some a' → ∃ a, s.outputs.get k = some a ∧
        a' = if k ∈ actuators then a.step ⟨.command .trip, now⟩ else a := by
  induction actuators generalizing s with
  | nil => exact ⟨s.outputs, rfl, fun k a' hget => ⟨a', hget, by simp⟩⟩
  | cons i actuators ih =>
    obtain ⟨hi, hnodup⟩ := List.nodup_cons.1 hnodup
    have hone : ∃ outputs, (tripOutput now s i).core = { s.core with outputs := outputs } ∧
        ∀ k a', outputs.get k = some a' → ∃ a, s.outputs.get k = some a ∧
          a' = if k = i then a.step ⟨.command .trip, now⟩ else a := by
      unfold tripOutput
      cases hget : s.outputs.get i with
      | none =>
        refine ⟨s.outputs, rfl, fun k a' ha => ⟨a', ha, ?_⟩⟩
        rw [if_neg]
        rintro rfl
        cases hget.symm.trans ha
      | some a =>
        have hins : ∀ k a', (s.outputs.insert i (a.command .trip now).2).get k = some a' →
            ∃ a, s.outputs.get k = some a ∧ a' = if k = i then a.step ⟨.command .trip, now⟩ else a := by
          intro k a' ha
          rw [OrderedMap.get_insert] at ha
          split_ifs at ha with hk
          · exact ⟨a, hk ▸ hget, by rw [if_pos hk]; exact (Option.some.inj ha).symm⟩
          · exact ⟨a', ha, by rw [if_neg hk]⟩
        refine ⟨_, ?_, hins⟩
        dsimp only
        rcases a.command .trip now with ⟨_ | _, a'⟩ <;> rfl
    obtain ⟨first, hcore, hfirst⟩ := hone
    obtain ⟨outputs, hcore', hrest⟩ := ih hnodup (tripOutput now s i)
    refine ⟨outputs, hcore'.trans (by rw [hcore]), fun k a' ha => ?_⟩
    obtain ⟨b, hb, rfl⟩ := hrest k a' ha
    rw [show (tripOutput now s i).outputs = first from congrArg Core.outputs hcore] at hb
    obtain ⟨a, hget, rfl⟩ := hfirst k b hb
    refine ⟨a, hget, ?_⟩
    by_cases hk : k = i
    · subst hk
      simp [hi]
    · simp [hk]

/-- A recording failure closes the gate, trips every output and stops every live controller. -/
theorem recordingFailure_core (now : ℕ)
    (h : ¬ (s.requiredRecording.enabled = false ∨ s.requiredRecording.failed = true)) :
    ∃ outputs controllers, (s.recordingFailure now).core =
        { s.core with
          outputs := outputs, controllers := controllers
          gate := { s.requiredRecording with isOpen := false, failed := true, validUntil := none } } ∧
      (∀ k a', outputs.get k = some a' → ∃ a now, s.outputs.get k = some a ∧ a' = a.step ⟨.command .trip, now⟩) ∧
      ∀ id x', controllers.get id = some x' →
        ∃ x, s.controllers.get id = some x ∧ x' = if x.state.live then x.fail else x := by
  unfold recordingFailure
  rw [if_neg h]
  dsimp only
  obtain ⟨controllers, hcore, houts, hctl⟩ := failLive_fold now s.controllers.keys { s with
    requiredRecording := { s.requiredRecording with isOpen := false, failed := true, validUntil := none } }
  obtain ⟨outputs, hcore', htrip⟩ := trip_fold now _ (OrderedMap.keys_nodup _) (s.controllers.keys.foldl (failLiveController now) { s with
    requiredRecording := { s.requiredRecording with isOpen := false, failed := true, validUntil := none } })
  refine ⟨outputs, controllers, hcore'.trans (by rw [hcore]; rfl), fun k a' hk => ?_, fun id x' hid => ?_⟩
  · obtain ⟨a, ha, rfl⟩ := htrip k a' hk
    rw [if_pos ((OrderedMap.mem_keys _).2 (by rw [ha]; rfl))]
    exact ⟨a, now, houts ▸ ha, rfl⟩
  · obtain ⟨x, hx, rfl⟩ := hctl id x' hid
    have hx : s.controllers.get id = some x := hx
    have hmem : id ∈ s.controllers.keys := (OrderedMap.mem_keys _).2 (by rw [hx]; rfl)
    exact ⟨x, hx, by simp only [hmem, true_and]⟩

/-- A recording failure is one move, if there is anything to fail. -/
theorem recordingFailure_evolves (s : Runtime σ) (now : ℕ) : Evolves P s (s.recordingFailure now) := by
  by_cases hskip : s.requiredRecording.enabled = false ∨ s.requiredRecording.failed = true
  · unfold recordingFailure
    rw [if_pos hskip]
    exact refl_of (Evolves P) s
  · refine .micro fun _ => ?_
    obtain ⟨outputs, controllers, hcore, htrip, hstop⟩ := recordingFailure_core now hskip
    rw [hcore]
    exact .failed htrip hstop

theorem serviceRequiredRecordingDeadline_evolves (s : Runtime σ) (now : ℕ) :
    Evolves P s (s.serviceRequiredRecordingDeadline now) := by
  unfold serviceRequiredRecordingDeadline
  have hfirst : Evolves P s
      (if s.requiredRecording.enabled && s.recordingFacts.overflowed then s.recordingFailure now else s) := by
    split_ifs
    · exact recordingFailure_evolves s now
    · exact refl_of (Evolves P) s
  dsimp only
  generalize (if s.requiredRecording.enabled && s.recordingFacts.overflowed then s.recordingFailure now else s) = s₁ at hfirst
  split_ifs
  · exact trans_of (Evolves P) hfirst (recordingFailure_evolves _ now)
  · exact hfirst

/-- The gate lets ordinary sends pass at a time, and nothing overflowed. -/
def Passes (s : Runtime σ) (now : ℕ) : Prop :=
  s.requiredRecording.Permits now ∧ (s.requiredRecording.enabled = true → s.recordingFacts.overflowed = false)

/-- After a recording failure an enabled gate is closed. -/
theorem recordingFailure_closed (hinv : Inv P s.core) (now : ℕ) (henabled : s.requiredRecording.enabled = true) :
    (s.recordingFailure now).requiredRecording.enabled = true ∧ (s.recordingFailure now).requiredRecording.isOpen = false := by
  by_cases hskip : s.requiredRecording.enabled = false ∨ s.requiredRecording.failed = true
  · unfold recordingFailure
    rw [if_pos hskip]
    refine ⟨henabled, Bool.eq_false_of_not_eq_true fun hopen => ?_⟩
    have hsound : s.requiredRecording.failed = false := (hinv.gate hopen).2.1
    simp [hsound, henabled] at hskip
  · obtain ⟨outputs, controllers, hcore, -, -⟩ := recordingFailure_core now hskip
    have hgate : (s.recordingFailure now).requiredRecording = _ := congrArg Core.gate hcore
    rw [hgate]
    exact ⟨henabled, rfl⟩

/-- A gate that is open after its deadline was serviced lets ordinary sends pass. -/
theorem serviced_passes (hinv : Inv P s.core) (now : ℕ)
    (hopen : (s.serviceRequiredRecordingDeadline now).requiredRecording.enabled = true →
      (s.serviceRequiredRecordingDeadline now).requiredRecording.isOpen = true) :
    (s.serviceRequiredRecordingDeadline now).Passes now := by
  unfold serviceRequiredRecordingDeadline at hopen ⊢
  dsimp only at hopen ⊢
  by_cases hover : (s.requiredRecording.enabled && s.recordingFacts.overflowed) = true
  · rw [if_pos hover] at hopen ⊢
    obtain ⟨henabled, -⟩ : s.requiredRecording.enabled = true ∧ _ := by simpa using hover
    obtain ⟨hstill, hclosed⟩ := recordingFailure_closed hinv now henabled
    rw [if_neg (by simp [hclosed])] at hopen
    exact absurd (hopen hstill) (by simp [hclosed])
  · rw [if_neg hover] at hopen ⊢
    by_cases hlate : (s.requiredRecording.enabled && s.requiredRecording.isOpen &&
        s.requiredRecording.validUntil.any (fun deadline => decide (now ≥ deadline))) = true
    · rw [if_pos hlate] at hopen
      obtain ⟨⟨henabled, -⟩, -⟩ : (s.requiredRecording.enabled = true ∧ _) ∧ _ := by simpa using hlate
      obtain ⟨hstill, hclosed⟩ := recordingFailure_closed hinv now henabled
      exact absurd (hopen hstill) (by simp [hclosed])
    · rw [if_neg hlate] at hopen ⊢
      refine ⟨fun henabled => ⟨hopen henabled, ?_⟩, fun henabled => ?_⟩
      · obtain ⟨deadline, hvalid⟩ : ∃ deadline, s.requiredRecording.validUntil = some deadline :=
          have ⟨_, _, submitted, _, hvalid⟩ := hinv.gate (hopen henabled)
          ⟨submitted + requiredProgressAge, hvalid⟩
        refine ⟨deadline, hvalid, lt_of_not_ge fun hge => hlate ?_⟩
        simp [henabled, hopen henabled, hvalid, hge]
      · simpa [henabled] using hover

/-- A gate that is open after its deadline was serviced did not fail there. -/
theorem serviced_same (hinv : Inv P s.core) (now : ℕ)
    (hopen : (s.serviceRequiredRecordingDeadline now).requiredRecording.enabled = true →
      (s.serviceRequiredRecordingDeadline now).requiredRecording.isOpen = true) :
    s.serviceRequiredRecordingDeadline now = s := by
  have hfailed : s.requiredRecording.enabled = true → s.serviceRequiredRecordingDeadline now ≠ s.recordingFailure now := by
    intro henabled hfail
    rw [hfail] at hopen
    obtain ⟨hstill, hclosed⟩ := recordingFailure_closed hinv now henabled
    exact absurd (hopen hstill) (by simp [hclosed])
  unfold serviceRequiredRecordingDeadline at hfailed ⊢
  dsimp only at hfailed ⊢
  by_cases hover : (s.requiredRecording.enabled && s.recordingFacts.overflowed) = true
  · rw [if_pos hover] at hfailed
    obtain ⟨henabled, -⟩ : s.requiredRecording.enabled = true ∧ _ := by simpa using hover
    obtain ⟨-, hclosed⟩ := recordingFailure_closed hinv now henabled
    exact absurd (if_neg (by simp [hclosed])) (hfailed henabled)
  · rw [if_neg hover] at hfailed ⊢
    refine if_neg fun hlate => ?_
    obtain ⟨⟨henabled, -⟩, -⟩ : (s.requiredRecording.enabled = true ∧ _) ∧ _ := by simpa using hlate
    exact hfailed henabled (if_pos hlate)

theorem requireRecordingOpen_evolves (now : ℕ) : Procedure.Moves (Evolves P) (requireRecordingOpen now : Step σ Unit) := by
  refine .bind (.update fun s => serviceRequiredRecordingDeadline_evolves s now) fun _ => .bind .get fun s => ?_
  split_ifs
  · exact .stop _
  · exact .pure ()

theorem requireRecordingOpen_ok (hinv : Inv P s.core) {now : ℕ} {u : Unit}
    (h : (requireRecordingOpen now).run s = (.ok u, s')) : s' = s.serviceRequiredRecordingDeadline now ∧ s'.Passes now := by
  unfold requireRecordingOpen at h
  rw [Procedure.run_modify_bind, Procedure.run_get_bind] at h
  have hpass := serviced_passes hinv now
  generalize s.serviceRequiredRecordingDeadline now = t at h hpass
  by_cases hclosed : (t.requiredRecording.enabled && !t.requiredRecording.isOpen) = true
  · rw [if_pos hclosed] at h
    cases h
  · rw [if_neg hclosed] at h
    obtain rfl : t = s' := (Prod.mk.inj h).2
    exact ⟨rfl, hpass fun henabled => by simpa [henabled] using hclosed⟩

/-- Past the check of the gate the owner is as it was. -/
theorem requireRecordingOpen_same (hinv : Inv P s.core) {now : ℕ} {u : Unit}
    (h : (requireRecordingOpen now).run s = (.ok u, s')) : s' = s := by
  obtain ⟨rfl, hpasses⟩ := requireRecordingOpen_ok hinv h
  exact serviced_same hinv now fun henabled => (hpasses.1 henabled).1

/-! ### Authority calls -/

theorem settle_snd {α : Type} (actuator : ActuatorId) (o : Outcome α) (s : Runtime σ) :
    ((settle actuator o).run s).2 = { s with outputs := s.outputs.insert actuator o.2 } := by
  obtain ⟨result, authority⟩ := o
  exact attempt_run result _

theorem settle_ok {α : Type} {actuator : ActuatorId} {o : Outcome α} {a : α} (h : (settle actuator o).run s = (.ok a, s')) :
    o.1 = .ok a ∧ s' = { s with outputs := s.outputs.insert actuator o.2 } := by
  obtain ⟨result, authority⟩ := o
  exact attempt_ok h

variable {k : ActuatorId} {a : OutputAuthority} {call : AuthorityCall}

/-- A call that neither leases, queues nor sends, or that is refused. -/
theorem settle_keeps {α : Type} {o : Outcome α} (hget : s.outputs.get k = some a)
    (after : o.2 = a.step call)
    (plain : call.op.plain = true ∨ (a.apply call).1.toOption = none) : Keeps P s ((settle k o).run s).2 := by
  rw [settle_snd]
  exact .micro rfl fun _ => .called hget after plain

theorem onOutput_keeps {α : Type} (k : ActuatorId) {f : OutputAuthority → Outcome α} {b : AuthorityOp} (now : ℕ)
    (hop : b.plain = true) (hf : ∀ a, (f a).2 = a.step ⟨b, now⟩) :
    Procedure.Moves (Keeps P) (onOutput k f : Step σ α) := by
  intro s
  unfold onOutput
  rw [Procedure.run_get_bind]
  cases hget : s.outputs.get k with
  | none => exact refl_of (Keeps P) s
  | some a => exact settle_keeps hget (hf a) (.inl hop)

theorem changeOutput_keeps (k : ActuatorId) {f : OutputAuthority → OutputAuthority} {b : AuthorityOp} (now : ℕ)
    (hop : b.plain = true) (hf : ∀ a, f a = a.step ⟨b, now⟩) :
    Procedure.Moves (Keeps P) (changeOutput k f : Step σ PUnit) := by
  intro s
  unfold changeOutput
  rw [Procedure.run_modify]
  cases hget : s.outputs.get k with
  | none => exact refl_of (Keeps P) s
  | some a => exact .micro rfl fun _ => .called hget (hf a) (.inl hop)

theorem allocateOutputAttempt_keeps : Procedure.Moves (Keeps P) (allocateOutputAttempt : Step σ ℕ) := by
  intro s
  unfold allocateOutputAttempt
  rw [Procedure.run_get_bind]
  cases hnext : checkedAdd s.nextOutputAttempt 1 with
  | none => exact refl_of (Keeps P) s
  | some next =>
    obtain ⟨rfl, -⟩ := checkedAdd_eq_some.1 hnext
    exact .micro rfl fun _ => .counted

theorem allocateOutputAttempt_ok {n : ℕ} (h : allocateOutputAttempt.run s = (.ok n, s')) :
    n = s.nextOutputAttempt + 1 ∧ s' = { s with nextOutputAttempt := n } := by
  unfold allocateOutputAttempt at h
  rw [Procedure.run_get_bind] at h
  cases hnext : checkedAdd s.nextOutputAttempt 1 with
  | none =>
    rw [hnext] at h
    cases h
  | some next =>
    rw [hnext] at h
    obtain ⟨rfl, -⟩ := checkedAdd_eq_some.1 hnext
    obtain ⟨hn, hs⟩ := Prod.mk.inj h
    obtain rfl := Except.ok.inj hn
    exact ⟨rfl, hs.symm⟩

theorem allocateSafeOutputAttempt_keeps : Procedure.Moves (Keeps P) (allocateSafeOutputAttempt : Step σ (Option ℕ)) := by
  intro s
  unfold allocateSafeOutputAttempt
  rw [Procedure.run_get_bind]
  cases hnext : checkedAdd s.nextOutputAttempt 1 with
  | none => exact SameCore.keeps rfl
  | some next =>
    obtain ⟨rfl, -⟩ := checkedAdd_eq_some.1 hnext
    exact .micro rfl fun _ => .counted

/-- The identity of a safe request is a number given out already, and the outputs are as they were. -/
theorem allocateSafeOutputAttempt_ok {n : Option ℕ} (h : allocateSafeOutputAttempt.run s = (.ok n, s')) :
    s'.outputs = s.outputs ∧ ∀ m, n = some m → m ≤ s'.nextOutputAttempt := by
  unfold allocateSafeOutputAttempt at h
  rw [Procedure.run_get_bind] at h
  cases hnext : checkedAdd s.nextOutputAttempt 1 with
  | none =>
    rw [hnext] at h
    obtain ⟨hn, rfl⟩ := Prod.mk.inj h
    obtain rfl := Except.ok.inj hn
    exact ⟨rfl, fun m hm => by cases hm⟩
  | some next =>
    rw [hnext] at h
    obtain ⟨hn, rfl⟩ := Prod.mk.inj h
    obtain rfl := Except.ok.inj hn
    exact ⟨rfl, fun m hm => (Option.some.inj hm).ge⟩

/-! ### Watchdogs and clocks -/

/-- Nothing is pending on an output. -/
def Unqueued (k : ActuatorId) (s : Runtime σ) : Prop :=
  ∀ a, s.outputs.get k = some a → a.permission.pending = none

theorem unqueued_insert {a' : OutputAuthority} (h : a'.permission.pending = none) :
    Unqueued k ({ s with outputs := s.outputs.insert k a' } : Runtime σ) := fun b hb => by
  rw [OrderedMap.get_insert_self] at hb
  exact Option.some.inj hb ▸ h

/-- A safe request is numbered under the next identity. -/
theorem attempted_keeps {n : ℕ} (hn : n ≤ s.nextOutputAttempt) (hidle : Unqueued k s) :
    Keeps P s { s with outputAttempts := s.outputAttempts.insert k n } :=
  .micro rfl fun _ => .attempted hn hidle

/-- The facts of a watchdog that revoked a lease, with the attempt of the safe write it asks for. -/
theorem watchdogFacts_keeps (now : ℕ) {k : ActuatorId} (hidle : Unqueued k s) :
    Keeps P s ((do
      let safeAttempt ← allocateSafeOutputAttempt
      match safeAttempt with
      | some attempt => modify fun s => { s with outputAttempts := s.outputAttempts.insert k attempt }
      | none => pure ()
      record fun facts => facts.outputCorrelated k .revoked none now .none safeAttempt none
      record fun facts => facts.outputCorrelated k .safeRequested none now .none safeAttempt none : Step σ Unit).run s).2 := by
  refine Procedure.Moves.bind_at (allocateSafeOutputAttempt_keeps s) fun n s₁ hrun => ?_
  obtain ⟨houts, hbound⟩ := allocateSafeOutputAttempt_ok hrun
  have hfacts : Procedure.Moves (Keeps P) (do
      record fun facts => facts.outputCorrelated k .revoked none now .none n none
      record fun facts => facts.outputCorrelated k .safeRequested none now .none n none : Step σ PUnit) :=
    moves_keeps (.bind (record_same _) fun _ => record_same _)
  cases n with
  | none => exact hfacts s₁
  | some m =>
    refine Procedure.Moves.bind_from (attempted_keeps (hbound m rfl) ?_) fun _ => hfacts
    exact fun a ha => hidle a (houts ▸ ha)

theorem tickOutputWatchdog_keeps (now : ℕ) (k : ActuatorId) :
    Procedure.Moves (Keeps P) (tickOutputWatchdog now k : Step σ Unit) := by
  intro s
  unfold tickOutputWatchdog
  rw [Procedure.run_get_bind]
  cases hget : s.outputs.get k with
  | none => exact refl_of (Keeps P) s
  | some before =>
    have hstep : (before.tick now).2 = before.step ⟨.tick, now⟩ := rfl
    refine Procedure.Moves.bind_at (settle_keeps hget hstep (.inl rfl)) fun u s₁ hrun => ?_
    obtain ⟨-, rfl⟩ := settle_ok hrun
    rw [Procedure.run_get_bind]
    dsimp only
    by_cases hsame : ((s.outputs.insert k (before.tick now).2).get k).map (fun authority => authority.snapshot.epoch) =
        some before.snapshot.epoch
    · rw [if_pos hsame]
      exact refl_of (Keeps P) _
    rw [if_neg hsame]
    -- the watchdog revoked the lease, so nothing is pending any more
    have hidle : Unqueued k ({ s with outputs := s.outputs.insert k (before.tick now).2 } : Runtime σ) := by
      refine unqueued_insert ?_
      rw [OrderedMap.get_insert_self] at hsame
      by_cases hrevokes : before.Revokes ⟨.tick, now⟩
      · exact (OutputAuthority.step_revocation hrevokes).drops.2.1
      · exfalso
        apply hsame
        rw [hstep]
        have hquiet : (before.tick now).2 = before := by
          unfold OutputAuthority.tick
          cases hlease : before.snapshot.lease with
          | none => rfl
          | some lease => exact congrArg Prod.snd (if_neg fun hle => hrevokes ⟨lease, hlease, hle⟩)
        rw [← hstep, hquiet]
        rfl
    generalize ({ s with outputs := s.outputs.insert k (before.tick now).2 } : Runtime σ) = s₁ at hidle
    rw [Procedure.run_modify_bind]
    have hsync := s₁.syncRecordingOutputContext_core k
    refine trans_of (Keeps P) (SameCore.keeps hsync) ?_
    have houts : (s₁.syncRecordingOutputContext k).outputs = s₁.outputs := congrArg Core.outputs hsync
    have hidle₂ : Unqueued k (s₁.syncRecordingOutputContext k) := fun a ha => hidle a (houts ▸ ha)
    generalize s₁.syncRecordingOutputContext k = s₂ at hidle₂
    split_ifs
    · exact Procedure.Moves.bind_at (R := Keeps P) (x := record _) (SameCore.keeps rfl) fun _ s₃ hrun => by
        obtain ⟨-, rfl⟩ := Prod.mk.inj hrun
        exact watchdogFacts_keeps now hidle₂
    · exact watchdogFacts_keeps now hidle₂

theorem checkOutputTime_keeps (now : ℕ) : Procedure.Moves (Keeps P) (checkOutputTime now : Step σ Unit) := by
  refine .bind .get fun s => ?_
  dsimp only
  have htick : Procedure.Moves (Keeps P) (do
      modify fun s => { s with outputTime := now }
      tickOutputWatchdogs now : Step σ Unit) :=
    .bind (.update fun s => SameCore.keeps rfl) fun _ => .bind .get fun s =>
      .forEach fun k _ => tickOutputWatchdog_keeps now k
  split_ifs
  · exact .bind (.stop _) fun _ => htick
  · exact htick

theorem checkTransportTime_same (now : ℕ) : Procedure.Moves SameCore (checkTransportTime now : Step σ Unit) := by
  refine .bind .get fun s => ?_
  dsimp only
  split_ifs
  · exact .bind (.stop _) fun _ => .update fun s => rfl
  · exact .update fun s => rfl

/-! ### Simulated sends -/

/-- An accepted begin starts a dispatch, an ordinary one from what was pending. -/
theorem begin_ok {now : ℕ} {result : OutputResult} (h : (a.command .beginDispatch now).1 = .ok result) :
    ∃ d, result = .dispatched d ∧ (d.safe = false → a.permission.pending ≠ none) := by
  have hnone : ¬ a.Revokes ⟨.command .beginDispatch, now⟩ := OutputAuthority.not_revokes rfl
  have hchange := OutputAuthority.step_change hnone
  have hreply : (a.apply ⟨.command .beginDispatch, now⟩).1 = .ok (.result result) := by
    simp [OutputAuthority.apply, OutputAuthority.reply, h, Except.map]
  rw [hreply] at hchange
  generalize (a.step ⟨_, now⟩).permission = p at hchange
  cases hchange with
  | begun settled reservation id epoch source =>
    refine ⟨_, rfl, fun hsafe => ?_⟩
    obtain ⟨-, -, hsafe', -⟩ | ⟨-, -, q, hq, -⟩ := source
    · cases hsafe.symm.trans hsafe'
    · simp [hq]
  | completed _ completes => cases completes
  | renewed renews => obtain ⟨_, h | h⟩ := renews <;> cases h

theorem command_reply {command : OutputCommand} {now : ℕ} {result : OutputResult} (h : (a.command command now).1 = .ok result) :
    (a.apply ⟨.command command, now⟩).1 = .ok (.result result) := by
  simp [OutputAuthority.apply, OutputAuthority.reply, h, Except.map]

theorem command_refused {command : OutputCommand} {now : ℕ} {error : Error} (h : (a.command command now).1 = .error error) :
    (a.apply ⟨.command command, now⟩).1.toOption = none := by
  simp [OutputAuthority.apply, OutputAuthority.reply, h, Except.map, Except.toOption]

/-- A simulated send is safe, or the gate lets it pass. -/
theorem beginSimulated_keeps (now : ℕ) (h : s.Unqueued k ∨ s.Passes now) :
    Keeps P s ((beginSimulated k now).run s).2 := by
  unfold beginSimulated
  rw [Procedure.run_get_bind]
  cases hget : s.outputs.get k with
  | none => exact refl_of (Keeps P) s
  | some a =>
    dsimp only
    rcases hcmd : a.command .beginDispatch now with ⟨error | result, a'⟩
    · have hrun : (settle k ((.error error : Except Error OutputResult), a') : Step σ _).run s =
          (.error (.rejected error), { s with outputs := s.outputs.insert k a' }) := rfl
      rw [Procedure.run_bind_error hrun]
      have hstep : a' = a.step ⟨.command .beginDispatch, now⟩ := (congrArg Prod.snd hcmd).symm
      exact .micro rfl fun _ => .called hget hstep (.inr (command_refused (congrArg Prod.fst hcmd)))
    · obtain ⟨d, rfl, hpending⟩ := begin_ok (congrArg Prod.fst hcmd)
      have hrun : (settle k ((.ok (.dispatched d) : Except Error OutputResult), a') : Step σ _).run s =
          (.ok (.dispatched d), { s with outputs := s.outputs.insert k a' }) := rfl
      rw [Procedure.run_bind_ok hrun]
      refine .micro rfl fun _ => ?_
      have hstep : a' = a.step ⟨.command .beginDispatch, now⟩ := (congrArg Prod.snd hcmd).symm
      have hpass : d.safe = false → s.Passes now := fun hsafe =>
        h.resolve_left fun hidle => hpending hsafe (hidle a hget)
      subst hstep
      exact .begun hget (command_reply (congrArg Prod.fst hcmd)) (fun hsafe => (hpass hsafe).1)
        fun _ hsafe => (hpass hsafe).2

theorem applyVirtualDispatch_same (k : ActuatorId) (value : F64) :
    Procedure.Moves SameCore (applyVirtualDispatch k value : Step σ Unit) := by
  refine .bind .get fun s => ?_
  cases s.thermalPlants.get k.instrument with
  | none => exact .pure ()
  | some plant =>
    dsimp only
    split_ifs
    · exact .bind (attempt_keeps _) fun _ => .update fun s => rfl
    · exact .pure ()

theorem complete_keeps (k : ActuatorId) (id : DispatchId) (outcome : DispatchOutcome) (now : ℕ) :
    Procedure.Moves (Keeps P) (onOutput k fun authority => authority.command (.complete id outcome) now : Step σ OutputResult) :=
  onOutput_keeps k (b := .command (.complete id outcome)) now rfl fun _ => rfl

theorem completeSimulatedSafe_keeps (now : ℕ) (h : s.Unqueued k) :
    Keeps P s ((completeSimulatedSafe k now).run s).2 := by
  unfold completeSimulatedSafe
  exact Procedure.Moves.bind_from (beginSimulated_keeps now (.inl h)) fun dispatch => .bind .get fun _ =>
    .bind (moves_keeps (record_same _)) fun _ => .bind (moves_keeps (applyVirtualDispatch_same _ _)) fun _ =>
      .bind (complete_keeps _ _ _ _) fun _ => moves_keeps (record_same _)

/-- An accepted safe request, trip or release leaves nothing pending. -/
theorem revoked_unqueued {command : OutputCommand} {now : ℕ} {result : OutputResult}
    (h : (a.command command now).1 = .ok result)
    (hop : command = .requestSafe ∨ command = .trip ∨ ∃ lease, command = .release lease) :
    (a.command command now).2.permission.pending = none := by
  have hrevokes : a.Revokes ⟨.command command, now⟩ := by
    obtain rfl | rfl | ⟨lease, rfl⟩ := hop
    · show a.snapshot.profile.isSome = true
      unfold OutputAuthority.command OutputAuthority.profile at h
      cases hp : a.snapshot.profile with
      | none => simp [hp] at h
      | some p => rfl
    · show a.snapshot.profile.isSome = true
      unfold OutputAuthority.command OutputAuthority.profile at h
      cases hp : a.snapshot.profile with
      | none => simp [hp] at h
      | some p => rfl
    · show a.checkLease lease now = .ok ()
      unfold OutputAuthority.command at h
      cases hc : a.checkLease lease now with
      | error e => simp [hc] at h
      | ok u => rfl
  exact (OutputAuthority.step_revocation hrevokes).drops.2.1

/-- A safe request, trip or release on an output, and then its safe send if it is a simulation. -/
theorem retire_keeps {command : OutputCommand} (now : ℕ) (hget : s.outputs.get k = some a)
    (hop : command = .requestSafe ∨ command = .trip ∨ ∃ lease, command = .release lease) :
    Keeps P s (((do
      let _ ← settle k (a.command command now)
      if (← get).thermalPlants.contains k.instrument then completeSimulatedSafe k now : Step σ Unit)).run s).2 := by
  have hplain : (AuthorityOp.command command).plain = true := by
    obtain rfl | rfl | ⟨lease, rfl⟩ := hop <;> rfl
  refine Procedure.Moves.bind_at
    (settle_keeps hget (rfl : _ = a.step ⟨.command command, now⟩) (.inl hplain)) fun result s₁ hrun => ?_
  obtain ⟨hok, rfl⟩ := settle_ok hrun
  rw [Procedure.run_get_bind]
  dsimp only
  split_ifs
  · exact completeSimulatedSafe_keeps now (unqueued_insert (revoked_unqueued hok hop))
  · exact refl_of (Keeps P) _

theorem failController_keeps (controller : NativeController) (now : ℕ) :
    Procedure.Moves (Keeps P) (failController controller now : Step σ Unit) := by
  intro s
  unfold failController
  rw [Procedure.run_get_bind]
  cases hget : s.outputs.get controller.config.output with
  | none => exact refl_of (Keeps P) s
  | some a =>
    dsimp only
    split_ifs
    · exact retire_keeps now hget (.inr (.inl rfl))
    · exact refl_of (Keeps P) s

end LabRuntime.Runtime
