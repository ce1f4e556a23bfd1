import LabRuntime.Runtime.PhysicalMoves

/-! The lifecycle of controllers as moves: registration, warming, ticks and stops. A controller that is out
of the registry for a call comes back with its own lease, and alive under no failed gate. -/

namespace LabRuntime.Runtime

open Core (Inv Path Micro)

variable {σ : Type} {P : Premises} {s s' : Runtime σ} {k : ActuatorId} {a : OutputAuthority} {x y : NativeController}

/-! ### Registration and configuration -/

/-- The controller may stand in the registry. -/
structure Holds (s : Runtime σ) (x : NativeController) : Prop where
  owned : s.core.Owned x
  alive : x.state.live = true → ¬ s.requiredRecording.Tripped

/-- A call leaves the lease of a controller its own, and the gate alone. -/
theorem Keeps.holds (h : Keeps P s s') (hinv : Inv P s.core) (hx : s.Holds x) : s'.Holds x :=
  ⟨(h.2 hinv).owned hx.owned, by rw [h.1]; exact hx.alive⟩

/-- A controller without a lease of another, and dead where it was. -/
theorem Holds.relet (hx : s.Holds x) (hconfig : y.config = x.config)
    (hlease : ∀ l', y.lease = some l' → ∃ l e, x.lease = some l ∧ l' = { l with expires := e })
    (hlive : y.state.live = true → x.state.live = true) : s.Holds y :=
  ⟨hx.owned.relet hconfig hlease, fun h => hx.alive (hlive h)⟩

theorem Holds.idle (hlease : x.lease = none) (hdead : x.state.live = false) : s.Holds x :=
  ⟨fun _ hl => absurd (hlease.symm.trans hl) (by simp), fun h => absurd (hdead.symm.trans h) (by simp)⟩

theorem holds_of_get {id : ControllerId} (hget : s.controllers.get id = some x) (hinv : Inv P s.core) :
    x.config.id = id ∧ s.Holds x := by
  obtain ⟨hid, howned, halive⟩ := registered hget hinv
  exact ⟨hid, howned, halive⟩

/-- A controller that holds its own lease may be stored. -/
theorem store_keeps {id : ControllerId} (h : Inv P s.core → x.config.id = id ∧ s.Holds x) :
    Keeps P s { s with controllers := s.controllers.insert id x } :=
  .micro rfl fun hinv => .stored (h hinv).1 (h hinv).2.owned (h hinv).2.alive

theorem captureControllerFact_same (id : ControllerId) (now : ℕ) :
    Procedure.Moves SameCore (captureControllerFact id now : Step σ PUnit) :=
  .update fun s => by cases s.controllers.get id <;> rfl

theorem knownController_run (id : ControllerId) (s : Runtime σ) : ((knownController id).run s).2 = s := by
  unfold knownController
  rw [Procedure.run_get_bind]
  cases s.controllers.get id <;> rfl

theorem knownController_ok {id : ControllerId} (h : (knownController id).run s = (.ok x, s')) :
    s.controllers.get id = some x ∧ s' = s := by
  unfold knownController at h
  rw [Procedure.run_get_bind] at h
  cases hget : s.controllers.get id with
  | none =>
    rw [hget] at h
    cases h
  | some y =>
    rw [hget] at h
    obtain ⟨hy, rfl⟩ := Prod.mk.inj h
    exact ⟨congrArg some (Except.ok.inj hy), rfl⟩

theorem rejectPreparedControllerMutation_run (id : ControllerId) (s : Runtime σ) :
    ((rejectPreparedControllerMutation id).run s).2 = s := by
  unfold rejectPreparedControllerMutation
  obtain ⟨e, s₁, hrun, heq⟩ | ⟨x, s₁, hrun, heq⟩ := Procedure.bind_cases (knownController id) _ s
  · rw [heq]
    exact (congrArg Prod.snd hrun).symm.trans (knownController_run id s)
  · obtain ⟨-, rfl⟩ := knownController_ok hrun
    rw [heq, Procedure.run_get_bind]
    split_ifs <;> rfl

/-- What follows the lookup of a controller. -/
theorem known_bind {R : Runtime σ → Runtime σ → Prop} [Std.Refl R] {α : Type} {id : ControllerId}
    {f : NativeController → Step σ α} (hf : ∀ x, s.controllers.get id = some x → R s ((f x).run s).2) :
    R s ((knownController id >>= f).run s).2 := by
  obtain ⟨e, s₁, hrun, heq⟩ | ⟨x, s₁, hrun, heq⟩ := Procedure.bind_cases (knownController id) f s
  · rw [heq, show s₁ = s from (congrArg Prod.snd hrun).symm.trans (knownController_run id s)]
    exact refl_of R s
  · obtain ⟨hget, rfl⟩ := knownController_ok hrun
    rw [heq]
    exact hf x hget

theorem NativeController.new_ok {config : NativeControllerConfig} (h : NativeController.new config = .ok x) :
    x.config = config ∧ x.lease = none ∧ x.state = .created := by
  unfold NativeController.new at h
  split_ifs at h
  obtain rfl := Except.ok.inj h
  exact ⟨rfl, rfl, rfl⟩

theorem registerController_keeps (config : NativeControllerConfig) (algorithmsValid : Bool) :
    Procedure.Moves (Keeps P) (registerController config algorithmsValid : Step σ Unit) := by
  intro s
  unfold registerController
  rw [Procedure.run_get_bind]
  by_cases hdup : s.controllers.contains config.id = true
  · rw [if_pos hdup]
    exact refl_of (Keeps P) s
  rw [if_neg hdup]
  by_cases hfull : s.controllers.size ≥ maxControllers
  · simp only [if_pos hfull]
    exact refl_of (Keeps P) s
  simp only [if_neg hfull]
  cases hnew : NativeController.new config with
  | error e => exact refl_of (Keeps P) s
  | ok x =>
    obtain ⟨hconfig, hlease, hstate⟩ := NativeController.new_ok hnew
    cases algorithmsValid with
    | false => exact refl_of (Keeps P) s
    | true =>
      have hstore : Keeps P s { s with controllers := s.controllers.insert config.id x } :=
        store_keeps fun _ => ⟨by rw [hconfig], .idle hlease (by rw [hstate]; rfl)⟩
      exact trans_of (Keeps P) hstore (SameCore.keeps rfl)

theorem prepareController_keeps (id : ControllerId) (referenceUnit : Option EngineeringUnit) :
    Procedure.Moves (Keeps P) (prepareController id referenceUnit : Step σ Unit) := by
  intro s
  refine known_bind fun x hget => ?_
  dsimp only
  by_cases hstate : x.state ≠ .created
  · rw [if_pos hstate]
    exact refl_of (Keeps P) s
  rw [if_neg hstate, Procedure.run_get_bind]
  have hstore : Keeps P s { s with controllers := s.controllers.insert id { x with state := .ready } } :=
    store_keeps fun hinv =>
      have ⟨hid, hholds⟩ := holds_of_get hget hinv
      ⟨hid, hholds.relet rfl (fun l hl => ⟨l, l.expires, hl, rfl⟩) fun h => by cases h⟩
  cases s.validateControllerConfig x.config referenceUnit with
  | error e => exact refl_of (Keeps P) s
  | ok u => exact trans_of (Keeps P) hstore (moves_keeps (captureControllerFact_same id _) _)

/-- A configurable controller holds no lease and does not live. -/
theorem configurable_holds (h : s.configurable x = true) : x.lease = none ∧ x.state.live = false := by
  unfold configurable at h
  simp only [Bool.and_eq_true, Bool.or_eq_true, beq_iff_eq, Option.isNone_iff_eq_none] at h
  refine ⟨h.1.2, ?_⟩
  obtain hs | hs := h.1.1 <;> rw [hs] <;> rfl

theorem configureControllerPid_keeps (id : ControllerId) (pid : PidConfig) (expectedRevision : ℕ) (algorithmsValid : Bool) :
    Procedure.Moves (Keeps P) (configureControllerPid id pid expectedRevision algorithmsValid : Step σ Unit) := by
  refine .bind (fun s => ?_) fun _ => fun s => ?_
  · rw [rejectPreparedControllerMutation_run]
    exact refl_of (Keeps P) s
  refine known_bind fun x hget => ?_
  dsimp only
  by_cases hrev : x.configRevision ≠ expectedRevision
  · rw [if_pos hrev]
    exact refl_of (Keeps P) s
  rw [if_neg hrev, Procedure.run_get_bind]
  cases hconf : s.configurable x with
  | false => exact refl_of (Keeps P) s
  | true =>
    obtain ⟨hlease, hdead⟩ := configurable_holds hconf
    cases checkedAdd x.configRevision 1 with
    | none => exact refl_of (Keeps P) s
    | some next =>
      cases algorithmsValid with
      | false => exact refl_of (Keeps P) s
      | true =>
        cases s.outputs.get x.config.output with
        | none => exact refl_of (Keeps P) s
        | some a =>
          cases haccepts : a.acceptsPidLimits pid.outputMin pid.outputMax with
          | false =>
            simp only [haccepts]
            exact refl_of (Keeps P) s
          | true =>
            simp only [haccepts]
            have hstore : Keeps P s { s with controllers := s.controllers.insert id { x with
                config := { x.config with pid := pid }
                pidLatest := none, latestOutput := none, lastTick := none, configRevision := next } } :=
              store_keeps fun hinv => ⟨(holds_of_get hget hinv).1, .idle hlease hdead⟩
            exact trans_of (Keeps P) hstore (SameCore.keeps rfl)

theorem reconfigureController_keeps (id : ControllerId) (config : NativeControllerConfig) (expectedRevision : ℕ)
    (algorithmsValid : Bool) (referenceUnit : Option EngineeringUnit) :
    Procedure.Moves (Keeps P) (reconfigureController id config expectedRevision algorithmsValid referenceUnit : Step σ Unit) := by
  refine .bind (fun s => ?_) fun _ => fun s => ?_
  · rw [rejectPreparedControllerMutation_run]
    exact refl_of (Keeps P) s
  refine known_bind fun x hget => ?_
  dsimp only
  by_cases hrev : x.configRevision ≠ expectedRevision
  · rw [if_pos hrev]
    exact refl_of (Keeps P) s
  rw [if_neg hrev, Procedure.run_get_bind]
  by_cases hother : config.id ≠ id ∨ config.input ≠ x.config.input ∨ config.output ≠ x.config.output ∨
      config.reference ≠ x.config.reference ∨ (!s.configurable x) = true
  · rw [if_pos hother]
    exact refl_of (Keeps P) s
  rw [if_neg hother]
  obtain ⟨hid, -, -, -, hconf⟩ : config.id = id ∧ config.input = x.config.input ∧ config.output = x.config.output ∧
      config.reference = x.config.reference ∧ s.configurable x = true := by
    simpa only [not_or, ne_eq, not_not, Bool.not_eq_true', Bool.not_eq_false] using hother
  obtain ⟨-, hdead⟩ := configurable_holds hconf
  cases checkedAdd x.configRevision 1 with
  | none => exact refl_of (Keeps P) s
  | some next =>
    cases hnew : NativeController.new config with
    | error e => exact refl_of (Keeps P) s
    | ok candidate =>
      obtain ⟨hconfig, hlease, -⟩ := NativeController.new_ok hnew
      cases algorithmsValid with
      | false => exact refl_of (Keeps P) s
      | true =>
        cases s.validateControllerConfig config referenceUnit with
        | error e => exact refl_of (Keeps P) s
        | ok u =>
          have hstore : Keeps P s { s with
              controllers := s.controllers.insert id { candidate with state := x.state, configRevision := next } } :=
            store_keeps fun _ => ⟨hconfig ▸ hid, .idle hlease hdead⟩
          exact trans_of (Keeps P) hstore (SameCore.keeps rfl)

/-! ### Calls on a controller outside the registry -/

/-- Ordinary control may go on: an enabled gate is open. -/
def Ready (s : Runtime σ) : Prop := s.requiredRecording.enabled = true → s.requiredRecording.isOpen = true

theorem Keeps.ready (h : Keeps P s s') (hready : s.Ready) : s'.Ready := by
  unfold Ready
  rw [h.1]
  exact hready

/-- Under an open gate nothing has failed. -/
theorem Ready.untripped (h : s.Ready) (hinv : Inv P s.core) : ¬ s.requiredRecording.Tripped := by
  rintro ⟨henabled, hfailed⟩
  have hsound : s.requiredRecording.failed = false := (hinv.gate (h henabled)).2.1
  cases hfailed.symm.trans hsound

/-- What a call does to the owner, and how its controller comes back. -/
structure Serves (P : Premises) (x : NativeController) (service : Step σ Serviced) (s : Runtime σ) : Prop where
  path : Path P s.core (service.run s).2.core
  back : ∀ y result s', service.run s = (.ok (y, result), s') → y.config.id = x.config.id ∧ s'.Holds y

/-- A call that changes nothing and hands back a controller. -/
theorem serves_pure {result : Except Error Unit} (hid : y.config.id = x.config.id) (hy : s.Holds y) :
    Serves P x (pure (y, result)) s := by
  refine ⟨.refl, fun y' result' s' h => ?_⟩
  obtain ⟨hy', rfl⟩ := Prod.mk.inj h
  obtain ⟨rfl, -⟩ := Prod.mk.inj (Except.ok.inj hy')
  exact ⟨hid, hy⟩

/-- First a step of its own, and then a call that hands the controller back. -/
theorem serves_bind {α : Type} {x : NativeController} {act : Step σ α} {rest : α → Step σ Serviced}
    (hact : Path P s.core (act.run s).2.core)
    (hrest : ∀ b s₁, act.run s = (.ok b, s₁) → Serves P x (rest b) s₁) : Serves P x (act >>= rest) s := by
  obtain ⟨e, s₁, hrun, heq⟩ | ⟨b, s₁, hrun, heq⟩ := Procedure.bind_cases act rest s
  · rw [hrun] at hact
    refine ⟨by rw [heq]; exact hact, fun y result s' h => ?_⟩
    rw [heq] at h
    cases h
  · rw [hrun] at hact
    obtain ⟨hpath, hback⟩ := hrest b s₁ hrun
    exact ⟨by rw [heq]; exact hact.trans hpath, fun y result s' h => hback y result s' (heq.symm.trans h)⟩

/-- First a call of its own, and then what is made of the controller it hands back. -/
theorem Serves.then {act : Step σ Serviced} {rest : Serviced → Step σ Serviced} (hact : Serves P x act s)
    (hrest : ∀ y result s₁, y.config.id = x.config.id → s₁.Holds y → Serves P x (rest (y, result)) s₁) :
    Serves P x (act >>= rest) s :=
  serves_bind hact.path fun ⟨y, result⟩ s₁ hrun => hrest y result s₁ (hact.back y result s₁ hrun).1 (hact.back y result s₁ hrun).2

/-- A served controller leaves the registry and comes back. -/
theorem servicing_evolves {id : ControllerId} {service : NativeController → Step σ Serviced}
    (h : ∀ x, Inv P s.core → s.controllers.get id = some x →
      Serves P x (service x) { s with controllers := s.controllers.remove id }) :
    Evolves P s ((servicing id service).run s).2 := by
  refine known_bind fun x hget hinv => ?_
  rw [Procedure.run_modify_bind]
  have hdrop : Path P s.core ({ s with controllers := s.controllers.remove id } : Runtime σ).core := .single .dropped
  refine hdrop.trans ?_
  obtain ⟨hpath, hback⟩ := h x hinv hget
  obtain ⟨e, s₁, hrun, heq⟩ | ⟨⟨y, result⟩, s₁, hrun, heq⟩ := Procedure.bind_cases (service x) _
    ({ s with controllers := s.controllers.remove id } : Runtime σ)
  · rw [hrun] at hpath
    rw [heq]
    exact hpath
  · obtain ⟨hid, hholds⟩ := hback y result s₁ hrun
    rw [hrun] at hpath
    rw [heq, Procedure.run_modify_bind, attempt_run]
    exact hpath.tail (.stored (hid.trans (hinv.owned id x hget).1) hholds.owned hholds.alive)

/-- A call on a controller of the registry meets it as it was stored. -/
theorem removed_holds {id : ControllerId} (hget : s.controllers.get id = some x) (hinv : Inv P s.core) :
    ({ s with controllers := s.controllers.remove id } : Runtime σ).Holds x ∧
      Inv P ({ s with controllers := s.controllers.remove id } : Runtime σ).core := by
  have hdrop : Keeps P s { s with controllers := s.controllers.remove id } := .micro rfl fun _ => .dropped
  exact ⟨hdrop.holds hinv (holds_of_get hget hinv).2, hdrop.2.inv hinv⟩

/-! ### Starting -/

/-- An acquisition is one move: the lease it returns is that of the controller. -/
theorem activateController_serves (now : ℕ) (hinv : Inv P s.core) (hready : s.Ready) (hconfig : y.config = x.config)
    (hy : s.Holds y) : Serves P x (activateController y now) s := by
  have hid : y.config.id = x.config.id := congrArg NativeControllerConfig.id hconfig
  unfold activateController
  refine serves_bind .refl fun s₁ s₂ hrun => ?_
  obtain ⟨heq, rfl⟩ := Prod.mk.inj hrun
  obtain rfl := Except.ok.inj heq
  cases hget : s.outputs.get y.config.output with
  | none => exact serves_pure hid hy
  | some a =>
    dsimp only
    have hfailed : ∀ s' : Runtime σ, s'.core.Owned y → s'.Holds { y with state := .failed } :=
      fun s' h => ⟨h, fun h => by cases h⟩
    cases hprepare : a.canPrepare with
    | false => exact serves_pure hid (hfailed s hy.owned)
    | true =>
      simp only [Bool.not_true, Bool.false_eq_true, if_false]
      have hmove : Path P s.core ({ s with
          outputs := s.outputs.insert y.config.output
            (a.command (.acquire (.automatic y.config.id) y.config.leaseLifetime) now).2 } : Runtime σ).core :=
        .single (@Micro.acquired _ _ _ _ (.automatic y.config.id) y.config.leaseLifetime now hget hready)
      refine serves_bind ?_ fun result s₁ hrun => ?_
      · rw [trying_snd, settle_snd]
        exact hmove
      cases result with
      | error error =>
        have hs₁ : s₁ = { s with
            outputs := s.outputs.insert y.config.output
              (a.command (.acquire (.automatic y.config.id) y.config.leaseLifetime) now).2 } := by
          rw [← settle_snd, ← trying_snd, hrun]
        exact serves_pure hid (hfailed s₁ (hs₁ ▸ hmove.owned hy.owned))
      | ok result =>
        obtain ⟨hok, rfl⟩ := settle_ok (trying_ok hrun)
        obtain ⟨l, p, rfl, hprofile, hpos, hle, hact, hinst, howner, harm⟩ := OutputAuthority.acquire_lease hok
        refine serves_pure hid ⟨fun l' hl' => ?_, fun _ => hready.untripped hinv⟩
        obtain rfl := Option.some.inj hl'
        obtain ⟨-, hk, hnext⟩ := hinv.wf _ a hget
        refine ⟨howner, hact.trans hk, hinst ▸ hnext, fun a' ha' _ => ?_⟩
        have hafter : a'.permission = a.permission.arm l := by
          have hins : some (a.command (.acquire (.automatic y.config.id) y.config.leaseLifetime) now).2 = some a' :=
            (OrderedMap.get_insert_self ..).symm.trans ha'
          rw [← Option.some.inj hins]
          exact harm
        rw [hafter]
        exact ⟨le_rfl, fun _ => ⟨p, hprofile, hpos, hle⟩⟩

/-- A warm-up leaves the controller without another's lease, and starts it under an open gate only. -/
theorem beginWarming_serves (loop : LoopAnswers) (now : ℕ) (expected : ControllerState) (hinv : Inv P s.core)
    (hready : s.Ready) (hx : s.Holds x) : Serves P x (beginWarming loop now expected x) s := by
  unfold beginWarming
  refine serves_bind .refl fun s₁ s₂ hrun => ?_
  obtain ⟨heq, rfl⟩ := Prod.mk.inj hrun
  obtain rfl := Except.ok.inj heq
  cases s.startingInput x loop now expected with
  | error error => exact serves_pure rfl hx
  | ok input =>
    obtain ⟨measurement, sampleAt⟩ := input
    have hkept : ∀ state tick, s.Holds { x with pidLatest := none, latestOutput := none, lastTick := tick, state := state } :=
      fun state tick => ⟨hx.owned, fun _ => hready.untripped hinv⟩
    dsimp only
    cases loop.filter measurement sampleAt with
    | none => exact serves_pure rfl (hkept x.state x.lastTick)
    | some filtered =>
      obtain ⟨value, ready⟩ := filtered
      cases ready with
      | true => exact activateController_serves now hinv hready rfl (hkept .warming (some now))
      | false => exact serves_pure rfl (hkept .warming (some now))

theorem startOrResumeController_evolves (id : ControllerId) (loop : LoopAnswers) (now : ℕ) (expected : ControllerState)
    (hready : s.Ready) : Evolves P s ((startOrResumeController id loop now expected).run s).2 := by
  have hcheck := checkOutputTime_keeps (P := P) now s
  refine Procedure.Moves.bind_at hcheck.2 fun u s₁ hrun => ?_
  rw [hrun] at hcheck
  refine servicing_evolves fun x hinv hget => ?_
  obtain ⟨hx, hdropped⟩ := removed_holds hget hinv
  exact beginWarming_serves loop now expected hdropped (hcheck.ready hready) hx

/-! ### Ticks -/

/-- What a call leaves of a controller that failed before it owned anything. -/
theorem fail_holds (x : NativeController) : s.Holds x.fail := .idle rfl rfl

theorem advanceWarming_serves (loop : LoopAnswers) (now : ℕ) (hinv : Inv P s.core) (hready : s.Ready) (hx : s.Holds x) :
    Serves P x (advanceWarming loop now x) s := by
  unfold advanceWarming
  refine serves_bind .refl fun s₁ s₂ hrun => ?_
  obtain ⟨heq, rfl⟩ := Prod.mk.inj hrun
  obtain rfl := Except.ok.inj heq
  cases s.warmingInput x loop now with
  | error error => exact serves_pure rfl (fail_holds x)
  | ok input =>
    obtain ⟨value, sampleAt⟩ := input
    have hticked : s.Holds { x with lastTick := some now } := hx.relet rfl (fun l hl => ⟨l, l.expires, hl, rfl⟩) id
    dsimp only
    by_cases hseen : (loop.lastFiltered.any fun last => decide (sampleAt ≤ last)) = true
    · rw [if_pos hseen]
      exact serves_pure rfl hticked
    rw [if_neg hseen]
    cases loop.filter value sampleAt with
    | none => exact serves_pure rfl (fail_holds x)
    | some filtered =>
      obtain ⟨filtered, ready⟩ := filtered
      cases ready with
      | false => exact serves_pure rfl hticked
      | true =>
        refine Serves.then (activateController_serves now hinv hready rfl hticked) fun y result s₁ hid hy => ?_
        cases result with
        | ok u => exact serves_pure hid hy
        | error e => exact serves_pure hid (fail_holds y)

/-- A value the controller may use is the latest sample of its input, Good and fresh. -/
theorem controlInput_ok {signal : SignalId} {now maxAge : ℕ} {value : F64} {unit : EngineeringUnit} {sampleAt : ℕ}
    (h : s.controlInput signal now maxAge = .ok (value, unit, sampleAt)) :
    ∃ sample, (s.signal signal).bind SignalBuffer.latest = some sample ∧ sample.quality = .good ∧ unit = sample.unit ∧
      sampleAt = sample.freshnessTime ∧ sampleAt ≤ now ∧ now - sampleAt < maxAge := by
  unfold controlInput at h
  cases hlatest : (s.signal signal).bind SignalBuffer.latest with
  | none => simp [hlatest] at h
  | some sample =>
    rw [hlatest] at h
    dsimp only at h
    by_cases hgood : sample.quality ≠ .good
    · rw [if_pos hgood] at h
      cases h
    rw [if_neg hgood] at h
    by_cases hearly : now < sample.freshnessTime
    · rw [if_pos hearly] at h
      cases h
    rw [if_neg hearly] at h
    by_cases hstale : now - sample.freshnessTime ≥ maxAge
    · rw [if_pos hstale] at h
      cases h
    rw [if_neg hstale] at h
    refine ⟨sample, rfl, not_not.1 hgood, ?_⟩
    cases hvalue : sample.value with
    | none => simp [hvalue] at h
    | some v =>
      cases v with
      | float value =>
        simp only [hvalue] at h
        split_ifs at h
        obtain ⟨-, hrest⟩ := Prod.mk.inj (Except.ok.inj h)
        obtain ⟨rfl, rfl⟩ := Prod.mk.inj hrest
        exact ⟨rfl, rfl, not_lt.1 hearly, not_le.1 hstale⟩
      | _ => simp [hvalue] at h

/-- What a running controller computes with: its own lease, a fresh Good measurement in the unit of its reference. -/
theorem runningInput_ok {loop : LoopAnswers} {now : ℕ} {filtered setpoint : F64} {unit : EngineeringUnit} {sampleAt : ℕ}
    {lease : OutputLease} {previous : ℕ}
    (h : s.runningInput x loop now = .ok (filtered, setpoint, unit, sampleAt, lease, previous)) :
    x.lastTick = some previous ∧ now - previous ≤ x.config.maxTickGap ∧ x.lease = some lease ∧
      ∃ sample, (s.signal x.config.input).bind SignalBuffer.latest = some sample ∧ sample.quality = .good ∧
        (unit == sample.unit) = true ∧ sampleAt = sample.freshnessTime ∧ sampleAt ≤ now ∧
        now - sampleAt < x.config.maxInputAge := by
  unfold runningInput at h
  cases hlast : x.lastTick with
  | none => simp [hlast] at h
  | some last =>
    rw [hlast] at h
    dsimp only at h
    by_cases hgap : now - last > x.config.maxTickGap
    · rw [if_pos hgap] at h
      cases h
    rw [if_neg hgap] at h
    cases hlease : x.lease with
    | none => simp [hlease] at h
    | some l =>
      rw [hlease] at h
      dsimp only at h
      by_cases hheld : now ≥ l.expires ∨
          (s.outputs.get x.config.output).all (fun authority => decide (authority.snapshot.lease ≠ some l)) = true
      · rw [if_pos hheld] at h
        cases h
      rw [if_neg hheld] at h
      cases hinput : s.controlInput x.config.input now x.config.maxInputAge with
      | error e => simp [hinput] at h
      | ok input =>
        obtain ⟨measurement, inputUnit, inputAt⟩ := input
        obtain ⟨sample, hlatest, hgood, hunit, hfresh, hle, hage⟩ := controlInput_ok hinput
        rw [hinput] at h
        dsimp only at h
        cases href : loop.reference with
        | error e => simp [href] at h
        | ok reference =>
          obtain ⟨target, referenceUnit⟩ := reference
          rw [href] at h
          dsimp only at h
          by_cases hother : (referenceUnit != inputUnit) = true
          · rw [if_pos hother] at h
            cases h
          rw [if_neg hother] at h
          by_cases hema : (inputUnit != x.config.emaUnit) = true
          · rw [if_pos hema] at h
            cases h
          rw [if_neg hema] at h
          rcases hfilter : loop.filter measurement inputAt with _ | ⟨value, _ | _⟩ <;> rw [hfilter] at h <;> try cases h
          refine ⟨rfl, not_lt.1 hgap, rfl, sample, hlatest, hgood, ?_, hfresh, hle, hage⟩
          rw [← hunit]
          simpa [bne] using hother

/-- An update that was computed is sound, and its proposal is that of the controller. -/
theorem calculateControllerUpdate_ok {loop : LoopAnswers} {now : ℕ} {calculation : Calculation} {unit : EngineeringUnit}
    (howner : ∀ l, x.lease = some l → l.owner = .automatic x.config.id) (hlast : ∀ last ∈ x.lastTick, last < now)
    (h : s.calculateControllerUpdate x loop now = (y, .ok (calculation, unit))) :
    (∃ update, y = { x with pidLatest := some update }) ∧ x.lease = some calculation.lease ∧
      Delivers x.config.output
        { lease := calculation.lease, value := .float calculation.update.output, unit := unit, ttl := calculation.ttl }
        (some calculation) now := by
  unfold calculateControllerUpdate at h
  cases hinput : s.runningInput x loop now with
  | error e => simp [hinput] at h
  | ok input =>
    obtain ⟨filtered, setpoint, referenceUnit, sampleAt, lease, previous⟩ := input
    obtain ⟨hprevious, hgap, hlease, sample, hlatest, hgood, hunit, hfresh, hle, hage⟩ := runningInput_ok hinput
    simp only [hinput, hlatest] at h
    cases hpid : loop.pid filtered setpoint with
    | none => simp [hpid] at h
    | some update =>
      simp only [hpid] at h
      by_cases hzero : min (min x.config.proposalTtl (x.config.maxInputAge - (now - sampleAt))) (lease.expires - now) = 0
      · simp [hzero] at h
      simp only [hzero, if_false] at h
      cases hout : s.outputUnit x.config.output with
      | none => simp [hout] at h
      | some outUnit =>
        simp only [hout, Prod.mk.injEq, Except.ok.injEq] at h
        obtain ⟨rfl, rfl, rfl⟩ := h
        refine ⟨⟨update, rfl⟩, hlease, ⟨fun m hm => ?_, fun h => by cases h⟩⟩
        obtain rfl := Option.some.inj hm
        refine ⟨⟨hgood, hunit, ?_, ⟨hlast previous hprevious, hgap⟩, howner lease hlease⟩, rfl, rfl, rfl, rfl, rfl⟩
        -- the proposal ends no later than the freshness of its measurement
        have hbound : min (min x.config.proposalTtl (x.config.maxInputAge - (now - sampleAt))) (lease.expires - now) ≤
            x.config.maxInputAge - (now - sampleAt) := (min_le_left _ _).trans (min_le_right _ _)
        show now + min (min x.config.proposalTtl (x.config.maxInputAge - (now - sampleAt))) (lease.expires - now) ≤
          sample.freshnessTime + x.config.maxInputAge
        rw [← hfresh]
        omega

/-! ### Deliveries in a tick -/

/-- A path that ends, where it succeeds, under an open gate. -/
def Delivered {α : Type} (P : Premises) (x : Step σ α) (s : Runtime σ) : Prop :=
  Inv P s.core → Path P s.core (x.run s).2.core ∧ ∀ a s', x.run s = (.ok a, s') → s'.Ready

theorem Passes.ready {now : ℕ} (h : s.Passes now) : s.Ready := fun henabled => (h.1 henabled).1

/-- What comes before the gate is checked, and what leaves the gate alone after. -/
theorem delivered_bind {α β : Type} {act : Step σ α} {rest : α → Step σ β} (hact : Evolves P s (act.run s).2)
    (hrest : ∀ a s₁, act.run s = (.ok a, s₁) → Delivered P (rest a) s₁) : Delivered P (act >>= rest) s := by
  intro hinv
  obtain ⟨e, s₁, hrun, heq⟩ | ⟨a, s₁, hrun, heq⟩ := Procedure.bind_cases act rest s
  · rw [hrun] at hact
    refine ⟨by rw [heq]; exact hact hinv, fun b s' h => ?_⟩
    rw [heq] at h
    cases h
  · rw [hrun] at hact
    obtain ⟨hpath, hready⟩ := hrest a s₁ hrun (hact.inv hinv)
    exact ⟨by rw [heq]; exact (hact hinv).trans hpath, fun b s' h => hready b s' (heq.symm.trans h)⟩

theorem delivered_of_keeps {α : Type} {x : Step σ α} (hready : s.Ready) (h : Keeps P s (x.run s).2) : Delivered P x s := by
  intro hinv
  refine ⟨h.2 hinv, fun a s' hrun => ?_⟩
  rw [hrun] at h
  exact h.ready hready

/-- Past the check of the gate, the rest only has to leave it alone. -/
theorem delivered_after_gate {α : Type} {now : ℕ} {rest : Unit → Step σ α}
    (hrest : ∀ s₁ : Runtime σ, s₁.Passes now → Keeps P s₁ ((rest ()).run s₁).2) :
    Delivered P (requireRecordingOpen now >>= rest) s := by
  intro hinv
  refine delivered_bind (requireRecordingOpen_evolves now s) (fun u s₁ hrun => ?_) hinv
  obtain ⟨-, hpasses⟩ := requireRecordingOpen_ok hinv hrun
  exact delivered_of_keeps hpasses.ready (hrest s₁ hpasses)

theorem deliverPhysical_delivered {proposal : OutputProposal} {calculation : Option Calculation} {now : ℕ}
    (h : Delivers k proposal calculation now) (hnative : P.native k → proposal.lease.owner.isManual = false) :
    Delivered P (deliverPhysical k proposal calculation now) s := by
  refine delivered_bind (moves_evolves (proposeDelivery_keeps h hnative false) s) fun u s₁ _ =>
    delivered_after_gate fun s₂ _ => ?_
  rw [Procedure.run_get_bind]
  rcases s₂.outputTiming k.instrument with _ | ⟨_ | queueTtl, timeout⟩
  · exact refl_of (Keeps P) s₂
  · exact refl_of (Keeps P) s₂
  · cases timeout with
    | none => exact refl_of (Keeps P) s₂
    | some timeout =>
      exact Procedure.Moves.bind (queueMetakonOutput_keeps k now queueTtl timeout) (fun _ => .pure ()) s₂

theorem deliverSimulated_delivered {proposal : OutputProposal} {calculation : Option Calculation} {now : ℕ}
    (h : Delivers k proposal calculation now) (hnative : P.native k → proposal.lease.owner.isManual = false) :
    Delivered P (deliverSimulated k proposal calculation now) s := by
  refine delivered_bind (moves_evolves (proposeDelivery_keeps h hnative true) s) fun u s₁ _ =>
    delivered_bind (refl_of (Evolves P) s₁) fun t s₂ hrun => ?_
  obtain ⟨-, rfl⟩ := Prod.mk.inj hrun
  refine delivered_after_gate fun s₃ hpasses => ?_
  have hfact : ∀ f, Procedure.Moves (Keeps P) (record f : Step σ PUnit) := fun f => moves_keeps (record_same f)
  refine Procedure.Moves.bind_from (beginSimulated_keeps now (.inr hpasses)) fun dispatch => ?_
  refine .bind (hfact _) fun _ => .bind (hfact _) fun _ =>
    .bind (trying_moves (moves_keeps (applyVirtualDispatch_same k dispatch.value))) fun applied => ?_
  cases applied with
  | error error => exact .bind (complete_keeps k dispatch.id .failed now) fun _ => .bind (hfact _) fun _ => .stop _
  | ok u => exact .bind (complete_keeps k dispatch.id .readbackVerified now) fun _ => hfact _

theorem deliver_delivered {proposal : OutputProposal} {calculation : Option Calculation} {now : ℕ}
    (h : Delivers k proposal calculation now) (hnative : P.native k → proposal.lease.owner.isManual = false) :
    Delivered P (deliver k proposal calculation now) s := by
  unfold deliver
  refine delivered_bind (refl_of (Evolves P) s) fun t s₁ hrun => ?_
  obtain ⟨-, rfl⟩ := Prod.mk.inj hrun
  split_ifs
  · exact deliverPhysical_delivered h hnative
  · exact deliverSimulated_delivered h hnative

theorem deliver_evolves {proposal : OutputProposal} {calculation : Option Calculation} {now : ℕ}
    (h : Delivers k proposal calculation now) (hnative : P.native k → proposal.lease.owner.isManual = false) :
    Procedure.Moves (Evolves P) (deliver k proposal calculation now : Step σ Unit) :=
  fun _ hinv => (deliver_delivered h hnative hinv).1

/-- A failed tick leaves a controller that owns nothing. -/
theorem failTick_serves {error : Error} {now : ℕ} (hinv : Inv P s.core) (hid : y.config.id = x.config.id) :
    Serves P x (failTick y error now) s := by
  unfold failTick
  refine serves_bind ((ignoring_moves (failController_keeps (P := P) y now) s).2 hinv) fun u s₁ _ => ?_
  exact serves_pure hid (fail_holds y)

theorem renewAfterTick_keeps (lease : OutputLease) (lifetime : ℕ) (physical : Bool) (k : ActuatorId) (now : ℕ) :
    Procedure.Moves (Keeps P) (renewAfterTick lease lifetime physical k now : Step σ OutputLease) := by
  unfold renewAfterTick
  split_ifs
  · exact .pure lease
  · exact onOutput_keeps k (b := .renewNative lease lifetime) now rfl fun _ => rfl

theorem renewAfterTick_ok {lease replacement : OutputLease} {lifetime : ℕ} {physical : Bool} {now : ℕ}
    (h : (renewAfterTick lease lifetime physical k now).run s = (.ok replacement, s')) :
    ∃ e, replacement = { lease with expires := e } := by
  unfold renewAfterTick at h
  by_cases hphysical : physical = true
  · rw [if_pos hphysical] at h
    exact ⟨lease.expires, (Except.ok.inj (Prod.mk.inj h).1).symm⟩
  · rw [if_neg hphysical] at h
    unfold onOutput at h
    rw [Procedure.run_get_bind] at h
    cases hget : s.outputs.get k with
    | none =>
      rw [hget] at h
      cases h
    | some a =>
      rw [hget] at h
      obtain ⟨hok, -⟩ := settle_ok h
      exact ⟨_, OutputAuthority.renewNative_ok hok⟩

theorem calculateControllerUpdate_config (s : Runtime σ) (x : NativeController) (loop : LoopAnswers) (now : ℕ) :
    (s.calculateControllerUpdate x loop now).1.config = x.config := by
  unfold calculateControllerUpdate
  split
  · rfl
  · rfl
  · split
    · rfl
    · dsimp only
      split_ifs
      · rfl
      · cases s.outputUnit x.config.output <;> rfl

theorem tickRunning_serves (loop : LoopAnswers) (now : ℕ) (hinv : Inv P s.core) (hx : s.Holds x)
    (hlast : ∀ last ∈ x.lastTick, last < now) : Serves P x (tickRunning loop now x) s := by
  unfold tickRunning
  refine serves_bind .refl fun t s₁ hrun => ?_
  obtain ⟨heq, rfl⟩ := Prod.mk.inj hrun
  obtain rfl := Except.ok.inj heq
  have hconfig := calculateControllerUpdate_config s x loop now
  rcases hcalc : s.calculateControllerUpdate x loop now with ⟨y, error | ⟨calculation, unit⟩⟩
  · rw [hcalc] at hconfig
    exact failTick_serves hinv (congrArg NativeControllerConfig.id hconfig)
  · have howner : ∀ l, x.lease = some l → l.owner = .automatic x.config.id := fun l hl => (hx.owned l hl).1
    obtain ⟨⟨update, rfl⟩, hlease, hdelivers⟩ := calculateControllerUpdate_ok howner hlast hcalc
    have hnative : P.native x.config.output → calculation.lease.owner.isManual = false := fun _ => by
      rw [howner _ hlease]
      rfl
    refine serves_bind .refl fun t s₁ hrun => ?_
    obtain ⟨heq, rfl⟩ := Prod.mk.inj hrun
    obtain rfl := Except.ok.inj heq
    obtain ⟨hpath, hready⟩ := deliver_delivered (s := s) hdelivers hnative hinv
    refine serves_bind (by rw [trying_snd]; exact hpath) fun delivered s₁ hrun => ?_
    have hs₁ : s₁ = ((deliver x.config.output
        { lease := calculation.lease, value := .float calculation.update.output, unit := unit, ttl := calculation.ttl }
        (some calculation) now).run s).2 := by rw [← trying_snd, hrun]
    rw [← hs₁] at hpath
    cases delivered with
    | error error => exact failTick_serves (hpath.inv hinv) rfl
    | ok u =>
      have hopen := hready _ s₁ (trying_ok hrun)
      have hrenew := renewAfterTick_keeps (P := P) calculation.lease x.config.leaseLifetime
        (s.physical x.config.output.instrument) x.config.output now s₁
      refine serves_bind (by rw [trying_snd]; exact hrenew.2 (hpath.inv hinv)) fun renewed s₂ hrun => ?_
      have hs₂ : s₂ = ((renewAfterTick calculation.lease x.config.leaseLifetime
          (s.physical x.config.output.instrument) x.config.output now).run s₁).2 := by rw [← trying_snd, hrun]
      rw [← hs₂] at hrenew
      have hinv₂ := hrenew.2.inv (hpath.inv hinv)
      cases renewed with
      | error error => exact failTick_serves hinv₂ rfl
      | ok replacement =>
        obtain ⟨e, rfl⟩ := renewAfterTick_ok (trying_ok hrun)
        refine serves_pure rfl ⟨?_, fun _ => (hrenew.ready hopen).untripped hinv₂⟩
        have howned := (hrenew.2 (hpath.inv hinv)).owned (hpath.owned hx.owned)
        refine howned.relet rfl fun l' hl' => ⟨calculation.lease, e, hlease, (Option.some.inj hl').symm⟩

theorem serviceTick_serves (loop : LoopAnswers) (now : ℕ) (hinv : Inv P s.core) (hready : s.Ready) (hx : s.Holds x) :
    Serves P x (serviceTick loop now x) s := by
  unfold serviceTick
  by_cases hdead : x.state.live = false
  · rw [if_pos hdead]
    exact serves_pure rfl hx
  rw [if_neg hdead]
  by_cases hearly : (x.lastTick.any fun previous => decide (now ≤ previous)) = true
  · rw [if_pos hearly]
    exact serves_pure rfl hx
  rw [if_neg hearly]
  have hlast : ∀ last ∈ x.lastTick, last < now := by
    intro last hmem
    by_contra hle
    exact hearly (by simp [Option.mem_def.1 hmem, not_lt.1 hle])
  by_cases hwarm : x.state = .warming
  · rw [if_pos hwarm]
    exact advanceWarming_serves loop now hinv hready hx
  · rw [if_neg hwarm]
    exact tickRunning_serves loop now hinv hx hlast

theorem tickController_evolves (id : ControllerId) (loop : LoopAnswers) (now : ℕ) (hready : s.Ready) :
    Evolves P s ((tickController id loop now).run s).2 := by
  have hcheck := checkOutputTime_keeps (P := P) now s
  refine Procedure.Moves.bind_at hcheck.2 fun u s₁ hrun => ?_
  rw [hrun] at hcheck
  refine servicing_evolves fun x hinv hget => ?_
  obtain ⟨hx, hdropped⟩ := removed_holds hget hinv
  exact serviceTick_serves loop now hdropped (hcheck.ready hready) hx

/-! ### Stopping -/

theorem releaseOutput_keeps (lease : OutputLease) (k : ActuatorId) (now : ℕ) :
    Procedure.Moves (Keeps P) (releaseOutput lease k now : Step σ Unit) := by
  intro s
  unfold releaseOutput
  rw [Procedure.run_get_bind]
  cases hget : s.outputs.get k with
  | none => exact refl_of (Keeps P) s
  | some a =>
    dsimp only
    split_ifs
    · exact retire_keeps now hget (.inr (.inr ⟨lease, rfl⟩))
    · exact retire_keeps now hget (.inl rfl)
    · exact refl_of (Keeps P) s

theorem pauseRunning_serves (now : ℕ) (hinv : Inv P s.core) (hx : s.Holds x) : Serves P x (pauseRunning now x) s := by
  unfold pauseRunning
  by_cases hwarm : x.state = .warming
  · rw [if_pos hwarm]
    exact serves_pure rfl (hx.relet rfl (fun l hl => ⟨l, l.expires, hl, rfl⟩) fun h => by cases h)
  rw [if_neg hwarm]
  by_cases hrunning : x.state ≠ .running
  · rw [if_pos hrunning]
    exact serves_pure rfl hx
  rw [if_neg hrunning]
  cases hlease : x.lease with
  | none => exact serves_pure rfl hx
  | some lease =>
    have hrelease := releaseOutput_keeps (P := P) lease x.config.output now s
    refine serves_bind (by rw [trying_snd]; exact hrelease.2 hinv) fun result s₁ hrun => ?_
    have hs₁ : s₁ = ((releaseOutput lease x.config.output now).run s).2 := by rw [← trying_snd, hrun]
    rw [← hs₁] at hrelease
    have hx₁ := hrelease.holds hinv hx
    refine serves_bind .refl fun t s₂ hrun => ?_
    obtain ⟨heq, rfl⟩ := Prod.mk.inj hrun
    obtain rfl := Except.ok.inj heq
    split_ifs
    · exact serves_pure rfl (.idle rfl rfl)
    · exact serves_pure rfl (hx₁.relet rfl (fun l hl => by cases hl) id)

theorem pauseController_evolves (id : ControllerId) (now : ℕ) :
    Procedure.Moves (Evolves P) (pauseController id now : Step σ Unit) := by
  refine .bind (moves_evolves (checkOutputTime_keeps now)) fun _ => fun s => ?_
  refine servicing_evolves fun x hinv hget => ?_
  obtain ⟨hx, hdropped⟩ := removed_holds hget hinv
  exact pauseRunning_serves now hdropped hx

theorem resetFailedController_evolves (id : ControllerId) (now : ℕ) :
    Procedure.Moves (Evolves P) (resetFailedController id now : Step σ Unit) := by
  refine .bind (moves_evolves (checkOutputTime_keeps now)) fun _ => fun s => known_bind fun x hget => ?_
  by_cases hstate : x.state ≠ .failed ∨ x.lease.isSome = true
  · simp only [if_pos hstate]
    exact refl_of (Evolves P) s
  simp only [if_neg hstate]
  rw [Procedure.run_get_bind]
  cases s.outputs.get x.config.output with
  | none =>
    dsimp only
    split_ifs
    · exact refl_of (Evolves P) s
    · exact refl_of (Evolves P) s
  | some a =>
    dsimp only
    split_ifs
    · exact refl_of (Evolves P) s
    · refine (store_keeps fun hinv => ?_).2
      obtain ⟨hid, hholds⟩ := holds_of_get hget hinv
      exact ⟨hid, hholds.relet rfl (fun l hl => ⟨l, l.expires, hl, rfl⟩) fun h => by cases h⟩

end LabRuntime.Runtime
