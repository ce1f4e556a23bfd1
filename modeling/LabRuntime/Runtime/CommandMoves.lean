import LabRuntime.Runtime.ControllerMoves

/-! The commands and the other calls of the host as moves: every call of the machine is a path. -/

namespace LabRuntime.Runtime

open Core (Inv Path Micro)

variable {σ : Type} {P : Premises} {s s' : Runtime σ} {k : ActuatorId} {a : OutputAuthority}

/-! ### Results of authority commands -/

theorem complete_result {id : DispatchId} {outcome : DispatchOutcome} {now : ℕ} {result : OutputResult}
    (h : (a.complete id outcome now).1 = .ok result) : result = .completed := by
  unfold OutputAuthority.complete at h
  cases hflight : a.snapshot.inFlight with
  | none => simp [hflight] at h
  | some d =>
    simp only [hflight] at h
    by_cases hid : d.id ≠ id
    · simp [hid] at h
    simp only [if_neg hid] at h
    -- whatever authority was settled, it is judged by the outcome alone
    generalize OutputAuthority.captureManualDelivery _ _ _ = b at h
    by_cases houtcome : outcome.unsettled = true
    · rw [if_pos houtcome] at h
      rcases hsafe : b.requestSafe true with ⟨error | u, c⟩
      · simp [hsafe] at h
      · simp only [hsafe] at h
        split_ifs at h
        · exact (Except.ok.inj h).symm
        · exact (Except.ok.inj h).symm
    rw [if_neg houtcome] at h
    by_cases hcurrent : d.safe = true ∧ d.epoch = b.snapshot.epoch
    · rw [if_pos hcurrent] at h
      by_cases hverified : outcome = .readbackVerified
      · rw [if_pos hverified] at h
        exact (Except.ok.inj h).symm
      · rw [if_neg hverified] at h
        cases hp : b.profile with
        | error error => simp [hp] at h
        | ok p =>
          rw [hp] at h
          exact (Except.ok.inj h).symm
    · rw [if_neg hcurrent] at h
      exact (Except.ok.inj h).symm

/-- Only the start of a send returns a dispatch. -/
theorem requestSafe_undispatched (a : OutputAuthority) (fault : Bool) (d : Dispatch) :
    (match a.requestSafe fault with
      | (.error error, s) => ((.error error, s) : Outcome OutputResult)
      | (.ok _, s) => (.ok .updated, s)).1 ≠ .ok (.dispatched d) := by
  intro hsafe
  rcases hrun : a.requestSafe fault with ⟨_ | _, b⟩ <;> simp [hrun] at hsafe

theorem command_dispatched {command : OutputCommand} {now : ℕ} {d : Dispatch}
    (h : (a.command command now).1 = .ok (.dispatched d)) : command = .beginDispatch := by
  cases command with
  | beginDispatch => rfl
  | complete id outcome => cases complete_result h
  | propose proposal => cases (propose_ok h).1
  | acquire owner lifetime =>
    obtain ⟨l, p, hl, -⟩ := OutputAuthority.acquire_lease h
    cases hl
  | tick => cases h
  | bindProfile profile =>
    have h : (a.bind profile).1 = .ok (.dispatched d) := h
    unfold OutputAuthority.bind at h
    split_ifs at h
    exfalso
    revert h
    repeat' split
    all_goals exact fun h => by cases h
  | acknowledgeFault =>
    dsimp only [OutputAuthority.command] at h
    split_ifs at h
    cases h
  | renewManual lease lifetime =>
    dsimp only [OutputAuthority.command] at h
    split_ifs at h
    rcases hrun : a.renew lease lifetime now with ⟨_ | _, b⟩ <;> simp [hrun] at h
  | release lease =>
    dsimp only [OutputAuthority.command] at h
    cases hlease : a.checkLease lease now with
    | error error => simp [hlease] at h
    | ok u =>
      rw [hlease] at h
      exact absurd h (requestSafe_undispatched _ false _)
  | requestSafe =>
    dsimp only [OutputAuthority.command] at h
    cases hp : a.profile with
    | error error => simp [hp] at h
    | ok p =>
      rw [hp] at h
      exact absurd h (requestSafe_undispatched _ false _)
  | trip =>
    dsimp only [OutputAuthority.command] at h
    cases hp : a.profile with
    | error error => simp [hp] at h
    | ok p =>
      rw [hp] at h
      exact absurd h (requestSafe_undispatched _ true _)

/-! ### What a command leaves beside its authority -/

theorem interruptWarming_keeps (k : ActuatorId) (command : OutputCommand) :
    Procedure.Moves (Keeps P) (interruptWarming k command : Step σ Unit) := by
  intro s
  unfold interruptWarming
  rw [Procedure.run_get_bind]
  have hcancel : ∀ state, ControllerState.live state = false → Keeps P s (cancelWarming k state s) :=
    fun state hdead => .micro rfl fun _ => .relabelled hdead
  split_ifs
  · cases command with
    | requestSafe => exact hcancel .paused rfl
    | trip => exact hcancel .failed rfl
    | _ => exact refl_of (Keeps P) s
  · exact refl_of (Keeps P) s

/-- An accepted command that starts no send leaves at most the number of its proposal. -/
theorem noteCommand_core {command : OutputCommand} {proposed : Option ℕ} {result : OutputResult} {now : ℕ}
    (before : OutputAuthority) (h : ∀ d, result ≠ .dispatched d) (s : Runtime σ) :
    ((noteCommand k before command proposed result now).run s).2.core =
      { s.core with attempts := match proposed with
          | some n => s.outputAttempts.insert k n
          | none => s.outputAttempts } := by
  cases result with
  | dispatched d => exact absurd rfl (h d)
  | _ => cases proposed <;> rfl

/-- An accepted start of a send leaves the send. -/
theorem noteCommand_sends {command : OutputCommand} {d : Dispatch} {now : ℕ} (before : OutputAuthority) (s : Runtime σ) :
    ((noteCommand k before command none (.dispatched d) now).run s).2.core =
      { s.core with sends := s.sends ++
          [{ actuator := k, dispatch := d.id, safe := d.safe, value := d.value
             lease := if d.safe then none else before.pending.map Pending.lease, attempt := s.outputAttempts.get k
             time := now, gate := s.requiredRecording, overflowed := s.recordingFacts.overflowed }] } := by
  unfold noteCommand
  dsimp only
  simp only [noteSend, record, Procedure.run_get_bind]
  cases hattempt : s.outputAttempts.get k with
  | none =>
    simp only [Procedure.run_get_bind, Procedure.run_modify_bind]
    exact applyVirtualDispatch_same k d.value _
  | some n =>
    simp only [Procedure.run_get_bind, Procedure.run_modify_bind]
    exact applyVirtualDispatch_same k d.value _

/-! ### One command on one authority -/

/-- A move to a state whose core is known. -/
theorem Keeps.of_core {c : Core} (hcore : s'.core = c) (hgate : c.gate = s.requiredRecording)
    (h : Inv P s.core → Micro P s.core c) : Keeps P s s' := by
  refine .micro ((congrArg Core.gate hcore).trans hgate) fun hinv => ?_
  rw [hcore]
  exact h hinv

/-- The command once its correlation is allocated. -/
def settleCommand (k : ActuatorId) (command : OutputCommand) (proposed : Option ℕ) (now : ℕ) : Step σ OutputResult := do
  let s ← get
  match s.outputs.get k with
  | none => reject (.output .unknownActuator)
  | some before =>
    let (result, authority) := before.command command now
    modify fun s => { s with outputs := s.outputs.insert k authority }
    modify fun s => s.syncRecordingOutputContext k
    match result with
    | .error error =>
      record (rejectedCommandFacts k command error proposed (s.outputAttempts.get k) before.snapshot.requested now)
      reject error
    | .ok result =>
      noteCommand k before command proposed result now
      return result

theorem commandOutput_eq (k : ActuatorId) (command : OutputCommand) (now : ℕ) :
    (commandOutput k command now : Step σ OutputResult) = (do
      attempt ((← get).requireReadbackPlan k command)
      let proposed ← allocateCommandAttempt command
      settleCommand k command proposed now) := rfl

/-- The owner with an authority of one actuator, and the context its facts are captured under. -/
def withAuthority (s : Runtime σ) (k : ActuatorId) (a : OutputAuthority) : Runtime σ :=
  ({ s with outputs := s.outputs.insert k a } : Runtime σ).syncRecordingOutputContext k

theorem withAuthority_core (s : Runtime σ) (k : ActuatorId) (a : OutputAuthority) :
    (s.withAuthority k a).core = { s.core with outputs := s.outputs.insert k a } :=
  syncRecordingOutputContext_core _ k

/-- A refused command leaves the authority it reached. -/
theorem settleCommand_refused {command : OutputCommand} {proposed : Option ℕ} {now : ℕ} {error : Error}
    (hget : s.outputs.get k = some a) (h : (a.command command now).1 = .error error) :
    ((settleCommand k command proposed now).run s).2.core =
      { s.core with outputs := s.outputs.insert k (a.step ⟨.command command, now⟩) } := by
  unfold settleCommand
  rw [Procedure.run_get_bind, hget]
  dsimp only
  rcases hcmd : a.command command now with ⟨_ | _, a'⟩
  · have hstep : a' = a.step ⟨.command command, now⟩ := (congrArg Prod.snd hcmd).symm
    rw [← hstep]
    exact s.withAuthority_core k a'
  · rw [hcmd] at h
    cases h

/-- An accepted command that starts no send leaves its authority and the number of its proposal. -/
theorem settleCommand_accepted {command : OutputCommand} {proposed : Option ℕ} {now : ℕ} {result : OutputResult}
    (hget : s.outputs.get k = some a) (h : (a.command command now).1 = .ok result) (hquiet : ∀ d, result ≠ .dispatched d) :
    ((settleCommand k command proposed now).run s).2.core =
      { s.core with
        outputs := s.outputs.insert k (a.step ⟨.command command, now⟩)
        attempts := match proposed with
          | some n => s.outputAttempts.insert k n
          | none => s.outputAttempts } := by
  unfold settleCommand
  rw [Procedure.run_get_bind, hget]
  dsimp only
  rcases hcmd : a.command command now with ⟨_ | r, a'⟩
  · rw [hcmd] at h
    cases h
  · rw [hcmd] at h
    obtain rfl := Except.ok.inj h
    have hstep : a' = a.step ⟨.command command, now⟩ := (congrArg Prod.snd hcmd).symm
    rw [← hstep]
    have hnote := @noteCommand_core σ k command proposed r now a hquiet (s.withAuthority k a')
    have hcore := s.withAuthority_core k a'
    have hattempts : (s.withAuthority k a').outputAttempts = s.outputAttempts := congrArg Core.attempts hcore
    rw [hcore, hattempts] at hnote
    refine Eq.trans ?_ hnote
    exact congrArg Runtime.core (Procedure.run_bind_pure _ _ _)

theorem withAuthority_overflowed (s : Runtime σ) (k : ActuatorId) (a : OutputAuthority) :
    (s.withAuthority k a).recordingFacts.overflowed = s.recordingFacts.overflowed := by
  unfold withAuthority syncRecordingOutputContext
  split
  · rfl
  · show (FactOutbox.outputContext _ _ _).overflowed = _
    unfold FactOutbox.outputContext
    split_ifs <;> rfl

theorem settleCommand_begun {now : ℕ} {d : Dispatch} (hget : s.outputs.get k = some a)
    (h : (a.command .beginDispatch now).1 = .ok (.dispatched d)) :
    ((settleCommand k .beginDispatch none now).run s).2.core =
      { s.core with
        outputs := s.outputs.insert k (a.step ⟨.command .beginDispatch, now⟩)
        sends := s.sends ++
          [{ actuator := k, dispatch := d.id, safe := d.safe, value := d.value
             lease := if d.safe then none else a.pending.map Pending.lease, attempt := s.outputAttempts.get k
             time := now, gate := s.requiredRecording, overflowed := s.recordingFacts.overflowed }] } := by
  unfold settleCommand
  rw [Procedure.run_get_bind, hget]
  dsimp only
  rcases hcmd : a.command .beginDispatch now with ⟨_ | r, a'⟩
  · rw [hcmd] at h
    cases h
  · rw [hcmd] at h
    obtain rfl := Except.ok.inj h
    have hstep : a' = a.step ⟨.command .beginDispatch, now⟩ := (congrArg Prod.snd hcmd).symm
    rw [← hstep]
    have hnote := @noteCommand_sends σ k .beginDispatch d now a (s.withAuthority k a')
    have hcore := s.withAuthority_core k a'
    have hattempts : (s.withAuthority k a').outputAttempts = s.outputAttempts := congrArg Core.attempts hcore
    have hsends : (s.withAuthority k a').sends = s.sends := congrArg Core.sends hcore
    have hgate : (s.withAuthority k a').requiredRecording = s.requiredRecording := congrArg Core.gate hcore
    rw [hcore, hattempts, hsends, hgate, withAuthority_overflowed] at hnote
    refine Eq.trans ?_ hnote
    exact congrArg Runtime.core (Procedure.run_bind_pure _ _ _)

/-- What an output command needs of the owner when it meets its authority. -/
def Admits (P : Premises) (s : Runtime σ) (k : ActuatorId) (command : OutputCommand) (now : ℕ) : Prop :=
  match command with
  | .acquire .. => s.Ready
  | .propose proposal => P.issued → proposal.lease.owner.isManual = true
  | .beginDispatch => s.Unqueued k ∨ s.requiredRecording.Permits now ∧
      (P.roomy → s.requiredRecording.enabled = true → s.recordingFacts.overflowed = false)
  | _ => True

theorem settleCommand_keeps {command : OutputCommand} {now : ℕ} (h : Admits P s k command now)
    (hplain : (AuthorityOp.command command).plain = true ∨ command = .beginDispatch ∨
      ∃ owner lifetime, command = .acquire owner lifetime) :
    Keeps P s ((settleCommand k command none now).run s).2 := by
  cases hget : s.outputs.get k with
  | none =>
    unfold settleCommand
    rw [Procedure.run_get_bind, hget]
    exact refl_of (Keeps P) s
  | some a =>
    rcases hcmd : (a.command command now).1 with error | result
    · exact .of_core (settleCommand_refused hget hcmd) rfl fun _ => .called hget rfl (.inr (command_refused hcmd))
    · obtain hplain | rfl | ⟨owner, lifetime, rfl⟩ := hplain
      · have hquiet : ∀ d, result ≠ .dispatched d := by
          rintro d rfl
          rw [command_dispatched hcmd] at hplain
          cases hplain
        exact .of_core (settleCommand_accepted hget hcmd hquiet) rfl fun _ => .called hget rfl (.inl hplain)
      · obtain ⟨d, rfl, hpending⟩ := begin_ok hcmd
        refine .of_core (settleCommand_begun hget hcmd) rfl fun _ => ?_
        have hpass := fun hsafe : d.safe = false => Or.resolve_left h fun hidle => hpending hsafe (hidle a hget)
        exact .begun hget (command_reply hcmd) (fun hsafe => (hpass hsafe).1) fun hr hsafe => (hpass hsafe).2 hr
      · have hquiet : ∀ d, result ≠ .dispatched d := by
          rintro d rfl
          cases command_dispatched hcmd
        exact .of_core (settleCommand_accepted hget hcmd hquiet) rfl fun _ => .acquired hget h

/-- An accepted safe request, trip or release is numbered once nothing is pending any more. -/
theorem settleCommand_retires {command : OutputCommand} {proposed : Option ℕ} {now : ℕ}
    (hop : command = .requestSafe ∨ command = .trip ∨ ∃ lease, command = .release lease)
    (hbound : ∀ n, proposed = some n → n ≤ s.nextOutputAttempt) :
    Keeps P s ((settleCommand k command proposed now).run s).2 := by
  have hplain : (AuthorityOp.command command).plain = true := by
    obtain rfl | rfl | ⟨lease, rfl⟩ := hop <;> rfl
  cases hget : s.outputs.get k with
  | none =>
    unfold settleCommand
    rw [Procedure.run_get_bind, hget]
    exact refl_of (Keeps P) s
  | some a =>
    rcases hcmd : (a.command command now).1 with error | result
    · exact .of_core (settleCommand_refused hget hcmd) rfl fun _ => .called hget rfl (.inl hplain)
    · have hquiet : ∀ d, result ≠ .dispatched d := by
        rintro d rfl
        rw [command_dispatched hcmd] at hplain
        cases hplain
      have hcore := @settleCommand_accepted σ s k a command proposed now result hget hcmd hquiet
      have hcalled : Micro P s.core { s.core with outputs := s.outputs.insert k (a.step ⟨.command command, now⟩) } :=
        .called hget rfl (.inl hplain)
      cases proposed with
      | none => exact .of_core hcore rfl fun _ => hcalled
      | some n =>
        refine ⟨(congrArg Core.gate hcore).trans rfl, fun _ => ?_⟩
        rw [hcore]
        refine (Relation.ReflTransGen.single hcalled).tail (.attempted (hbound n rfl) fun b hb => ?_)
        rw [OrderedMap.get_insert_self] at hb
        obtain rfl := Option.some.inj hb
        exact revoked_unqueued hcmd hop

/-- An accepted proposal, its number and the number it is sent under are one move. -/
theorem settleCommand_proposes {proposal : OutputProposal} {now : ℕ} (h : P.issued → proposal.lease.owner.isManual = true) :
    Keeps P s ((settleCommand k (.propose proposal) (some (s.nextOutputAttempt + 1)) now).run
      { s with nextOutputAttempt := s.nextOutputAttempt + 1 }).2 := by
  have hcount : Keeps P s { s with nextOutputAttempt := s.nextOutputAttempt + 1 } := .micro rfl fun _ => .counted
  cases hget : s.outputs.get k with
  | none =>
    refine trans_of (Keeps P) hcount ?_
    unfold settleCommand
    rw [Procedure.run_get_bind]
    dsimp only
    rw [hget]
    exact refl_of (Keeps P) _
  | some a =>
    have hget' : ({ s with nextOutputAttempt := s.nextOutputAttempt + 1 } : Runtime σ).outputs.get k = some a := hget
    rcases hcmd : (a.command (.propose proposal) now).1 with error | result
    · refine trans_of (Keeps P) hcount ?_
      exact .of_core (settleCommand_refused hget' hcmd) rfl fun _ => .called hget' rfl (.inr (command_refused hcmd))
    · obtain ⟨rfl, -⟩ := propose_ok hcmd
      refine .of_core (settleCommand_accepted hget' hcmd (by simp)) rfl fun _ => ?_
      have hmove : Micro P s.core _ := @Micro.proposed P s.core k a _ _ _ none hget (.inl rfl) (command_reply hcmd)
        (fun m hm => by cases hm) fun hp _ => h hp
      rwa [Option.map_none, Option.toList_none, List.append_nil] at hmove

theorem allocate_then_keeps {command : OutputCommand} {now : ℕ} (h : ∀ s : Runtime σ, s.Admits P k command now →
      Keeps P s ((do
        let proposed ← allocateCommandAttempt command
        settleCommand k command proposed now : Step σ OutputResult).run s).2)
    (hadmits : s.Admits P k command now) : Keeps P s ((commandOutput k command now).run s).2 := by
  rw [commandOutput_eq, Procedure.run_get_bind]
  refine Procedure.Moves.bind_at (attempt_keeps (R := Keeps P) _ s) fun u s₁ hrun => ?_
  obtain ⟨-, rfl⟩ := attempt_ok hrun
  exact h _ hadmits

theorem commandOutput_keeps {command : OutputCommand} {now : ℕ} (hadmits : s.Admits P k command now) :
    Keeps P s ((commandOutput k command now).run s).2 := by
  refine allocate_then_keeps (fun s hadmits => ?_) hadmits
  have hsafe : (command = .requestSafe ∨ command = .trip ∨ ∃ lease, command = .release lease) →
      Keeps P s ((do
        let proposed ← allocateSafeOutputAttempt
        settleCommand k command proposed now : Step σ OutputResult).run s).2 := fun hop =>
    Procedure.Moves.bind_at (allocateSafeOutputAttempt_keeps s) fun n s₁ hrun =>
      settleCommand_retires hop (allocateSafeOutputAttempt_ok hrun).2
  cases command with
  | requestSafe => exact hsafe (.inl rfl)
  | trip => exact hsafe (.inr (.inl rfl))
  | release lease => exact hsafe (.inr (.inr ⟨lease, rfl⟩))
  | propose proposal =>
    obtain ⟨e, s₁, hrun, heq⟩ | ⟨n, s₁, hrun, heq⟩ := Procedure.bind_cases allocateOutputAttempt
      (fun n => (pure (some n) : Step σ (Option ℕ))) s
    · have halloc : (allocateCommandAttempt (.propose proposal) : Step σ _).run s = (.error e, s₁) := heq
      rw [Procedure.run_bind_error halloc]
      have hkeeps := allocateOutputAttempt_keeps (P := P) s
      rwa [hrun] at hkeeps
    · have halloc : (allocateCommandAttempt (.propose proposal) : Step σ _).run s = (.ok (some n), s₁) := heq
      rw [Procedure.run_bind_ok halloc]
      obtain ⟨rfl, rfl⟩ := allocateOutputAttempt_ok hrun
      exact settleCommand_proposes hadmits
  | beginDispatch => exact settleCommand_keeps hadmits (.inr (.inl rfl))
  | acquire owner lifetime => exact settleCommand_keeps hadmits (.inr (.inr ⟨owner, lifetime, rfl⟩))
  | _ => exact settleCommand_keeps hadmits (.inl rfl)

/-! ### Output commands -/

theorem tickOutputWatchdog_drains (now : ℕ) (k : ActuatorId) :
    Procedure.Moves Drains (tickOutputWatchdog now k : Step σ Unit) := by
  intro s
  unfold tickOutputWatchdog
  rw [Procedure.run_get_bind]
  cases hget : s.outputs.get k with
  | none => exact refl_of Drains s
  | some before =>
    refine Procedure.Moves.bind_from (settle_drains hget (rfl : _ = before.step ⟨.tick, now⟩) fun proposal h => by cases h)
      fun _ => .bind .get fun s => ?_
    have hfact : ∀ f, Procedure.Moves Drains (record f : Step σ PUnit) := fun f => .update fun s => Drains.of_same rfl
    have hsync : Procedure.Moves Drains (modify fun s => s.syncRecordingOutputContext k : Step σ PUnit) :=
      .update fun s => Drains.of_same (congrArg Core.outputs (s.syncRecordingOutputContext_core k))
    have hallocate : Procedure.Moves Drains (allocateSafeOutputAttempt : Step σ (Option ℕ)) := by
      intro s
      unfold allocateSafeOutputAttempt
      rw [Procedure.run_get_bind]
      cases checkedAdd s.nextOutputAttempt 1 with
      | none => exact Drains.of_same rfl
      | some next => exact Drains.of_same rfl
    have hnumber : Procedure.Moves Drains (do
        let safeAttempt ← allocateSafeOutputAttempt
        match safeAttempt with
        | some attempt => modify fun s => { s with outputAttempts := s.outputAttempts.insert k attempt }
        | none => pure ()
        record fun facts => facts.outputCorrelated k .revoked none now .none safeAttempt none
        record fun facts => facts.outputCorrelated k .safeRequested none now .none safeAttempt none : Step σ Unit) := by
      refine .bind hallocate fun n => ?_
      cases n with
      | none => exact .bind (hfact _) fun _ => hfact _
      | some n => exact .bind (.update fun s => Drains.of_same rfl) fun _ => .bind (hfact _) fun _ => hfact _
    dsimp only
    by_cases hsame : (s.outputs.get k).map (fun authority => authority.snapshot.epoch) = some before.snapshot.epoch
    · rw [if_pos hsame]
      exact .pure _
    rw [if_neg hsame]
    refine .bind hsync fun _ => ?_
    split_ifs
    · exact .bind (hfact _) fun _ => hnumber
    · exact hnumber

theorem checkOutputTime_drains (now : ℕ) : Procedure.Moves Drains (checkOutputTime now : Step σ Unit) := by
  refine .bind .get fun s => ?_
  dsimp only
  have htick : Procedure.Moves Drains (do
      modify fun s => { s with outputTime := now }
      tickOutputWatchdogs now : Step σ Unit) :=
    .bind (.update fun s => Drains.of_same rfl) fun _ => .bind .get fun s =>
      .forEach fun k _ => tickOutputWatchdog_drains now k
  split_ifs
  · exact .bind (.stop _) fun _ => htick
  · exact htick

theorem interruptWarming_run (k : ActuatorId) {command : OutputCommand} (hsafe : command ≠ .requestSafe) (htrip : command ≠ .trip)
    (s : Runtime σ) : ((interruptWarming k command).run s).2 = s := by
  unfold interruptWarming
  rw [Procedure.run_get_bind]
  split_ifs
  · cases command with
    | requestSafe => exact absurd rfl hsafe
    | trip => exact absurd rfl htrip
    | _ => rfl
  · rfl

/-- The facts of the watchdogs that a call serves still fit in the outbox. -/
def WatchdogsFit (s : Runtime σ) (now : ℕ) : Prop :=
  s.recordingFacts.overflowed = false → ((checkOutputTime now).run s).2.recordingFacts.overflowed = false

instance (s : Runtime σ) (now : ℕ) : Decidable (s.WatchdogsFit now) :=
  inferInstanceAs (Decidable (s.recordingFacts.overflowed = false → _ = false))

/-- What an output command needs of the owner before the watchdogs. -/
def AdmitsChecked (P : Premises) (s : Runtime σ) (k : ActuatorId) (command : OutputCommand) (now : ℕ) : Prop :=
  match command with
  | .acquire .. => s.Ready
  | .propose proposal => P.issued → proposal.lease.owner.isManual = true
  | .beginDispatch => s.Unqueued k ∨ s.Passes now ∧ (P.roomy → s.WatchdogsFit now)
  | _ => True

/-- The part of an output command past the gate. -/
theorem outputChecked_keeps {command : OutputCommand} {now : ℕ} (h : s.AdmitsChecked P k command now) :
    Keeps P s ((do
      checkOutputTime now
      interruptWarming k command
      commandOutput k command now : Step σ OutputResult).run s).2 := by
  have htime := checkOutputTime_keeps (P := P) now s
  have hdrains := checkOutputTime_drains now s
  refine Procedure.Moves.bind_at htime fun u s₁ hrun => ?_
  have hfits : s.WatchdogsFit now → s.recordingFacts.overflowed = false → s₁.recordingFacts.overflowed = false := by
    intro hfit hroom
    have hroom₁ := hfit hroom
    rwa [hrun] at hroom₁
  rw [hrun] at htime hdrains
  refine Procedure.Moves.bind_at (interruptWarming_keeps k command s₁) fun u s₂ hrun₂ => commandOutput_keeps ?_
  have hsame : command ≠ .requestSafe → command ≠ .trip → s₂ = s₁ := by
    intro hsafe htrip
    have hstate := interruptWarming_run k hsafe htrip s₁
    rwa [hrun₂] at hstate
  cases command with
  | acquire owner lifetime =>
    obtain rfl := hsame (by simp) (by simp)
    exact htime.ready h
  | propose proposal => exact h
  | beginDispatch =>
    obtain rfl := hsame (by simp) (by simp)
    obtain hidle | ⟨hpasses, hroomy⟩ := h
    · exact .inl (hdrains k hidle)
    · refine .inr ⟨by rw [htime.1]; exact hpasses.1, fun hr henabled => hfits (hroomy hr) (hpasses.2 ?_)⟩
      rwa [htime.1] at henabled
  | _ => trivial

/-- The premises of a run that bear on one output command. -/
structure Allows (P : Premises) (s : Runtime σ) (command : OutputCommand) (now : ℕ) : Prop where
  issued : P.issued → ∀ proposal, command = .propose proposal → proposal.lease.owner.isManual = true
  roomy : P.roomy → command = .beginDispatch →
    ((s.serviceRequiredRecordingDeadline now).serviceRequiredRecordingDeadline now).WatchdogsFit now

theorem output_evolves {command : OutputCommand} {now : ℕ} (h : s.Allows P command now) :
    Evolves P s ((output k command now).run s).2 := by
  have hservice := serviceRequiredRecordingDeadline_evolves (P := P) s now
  unfold output
  rw [Procedure.run_modify_bind, Procedure.run_get_bind]
  refine trans_of (Evolves P) hservice fun hinv => ?_
  obtain ⟨hissued, hroomy⟩ := h
  generalize s.serviceRequiredRecordingDeadline now = s₁ at hinv hroomy
  have hrest : ∀ s₂ : Runtime σ, (s₂.outputs.contains k = true → s₂.AdmitsChecked P k command now) → Evolves P s₂ ((do
      if !(← get).outputs.contains k then reject (.output .unknownActuator)
      checkOutputTime now
      interruptWarming k command
      commandOutput k command now : Step σ OutputResult).run s₂).2 := by
    intro s₂ hadmits
    rw [Procedure.run_get_bind]
    cases hcontains : s₂.outputs.contains k with
    | false => exact refl_of (Evolves P) s₂
    | true => exact (outputChecked_keeps (hadmits hcontains)).2
  by_cases hordinary : s₁.ordinary k command = true
  · rw [if_pos hordinary]
    refine Procedure.Moves.bind_at (R := Evolves P) (requireRecordingOpen_evolves now s₁) (fun u s₂ hrun => hrest s₂ fun _ => ?_) hinv
    obtain ⟨rfl, hpasses⟩ := requireRecordingOpen_ok hinv hrun
    cases command with
    | acquire owner lifetime => exact hpasses.ready
    | propose proposal => exact fun hp => hissued hp _ rfl
    | beginDispatch => exact .inr ⟨hpasses, fun hr => hroomy hr rfl⟩
    | _ => trivial
  · rw [if_neg hordinary]
    refine hrest s₁ (fun hcontains => ?_) hinv
    cases command with
    | acquire owner lifetime => exact absurd rfl hordinary
    | propose proposal => exact absurd rfl hordinary
    | beginDispatch =>
      -- the send is not ordinary: the output waits for its safe value
      refine .inl fun a hget => ?_
      have hstate : a.snapshot.state = .safePending := by simpa [ordinary, hget] using hordinary
      have hwf := (hinv.wf _ _ hget).1
      exact hwf.unqueued (hwf.unarmed (by rw [show a.permission.state = _ from hstate]; rfl))
    | _ => trivial

/-! ### Manual commands -/

theorem output_quiet {command : OutputCommand} {now : ℕ} (hpropose : ∀ proposal, command ≠ .propose proposal)
    (hbegin : command ≠ .beginDispatch) : Procedure.Moves (Evolves P) (output k command now : Step σ OutputResult) := fun _ =>
  output_evolves ⟨fun _ proposal h => absurd h (hpropose proposal), fun _ h => absurd h hbegin⟩

theorem manualWrite_evolves {snapshot : OutputSnapshot} {owner : ℕ} (value : Value) (ttl now : ℕ) (hnative : ¬ P.native k)
    (howner : ∀ lease, snapshot.lease = some lease → lease.owner = .manual owner) :
    Procedure.Moves (Evolves P) (manualWrite k snapshot value ttl now : Step σ Unit) := by
  intro s
  unfold manualWrite
  by_cases hbusy : snapshot.pending ∨ snapshot.inFlight.isSome ∨
      snapshot.manualAttempt.any (fun attempt => !attempt.terminal) = true
  · rw [if_pos hbusy]
    exact refl_of (Evolves P) s
  rw [if_neg hbusy]
  refine Procedure.Moves.bind_from (R := Evolves P) (requireRecordingOpen_evolves now s) fun _ => .bind .get fun s => ?_
  cases s.descriptor k.instrument with
  | none => exact .stop _
  | some descriptor =>
    dsimp only
    cases descriptor.parameter k.parameter with
    | none => exact .stop _
    | some parameter =>
      cases hlease : snapshot.lease with
      | none => exact .stop _
      | some lease =>
        have hmanual : lease.owner.isManual = true := by rw [howner lease hlease]; rfl
        have hdelivers : Delivers k { lease := lease, value := value, unit := parameter.unit, ttl := ttl } none now :=
          { computed := nofun, manual := fun _ => hmanual }
        refine .bind (trying_moves (deliver_evolves hdelivers fun hp => absurd hp hnative)) fun delivered => ?_
        cases delivered with
        | ok u => exact .pure _
        | error error =>
          have hfail : Procedure.Moves (Keeps P) (changeOutput k OutputAuthority.failManualBeforeSend : Step σ PUnit) :=
            changeOutput_keeps k (b := .failManualBeforeSend) now rfl fun _ => rfl
          refine .bind .get fun s => ?_
          split_ifs
          · exact .bind (moves_evolves hfail) fun _ =>
              .bind (output_quiet nofun nofun) fun _ => .stop _
          · exact .stop _

theorem manualOutput_evolves (owner expectedInstance expectedEpoch : ℕ) {command : ManualOutputCommand} {now : ℕ}
    (hnative : P.native k → ∀ value ttl, command ≠ .write value ttl) :
    Procedure.Moves (Evolves P) (manualOutput k owner expectedInstance expectedEpoch command now : Step σ Unit) := by
  refine .bind .get fun s => ?_
  dsimp only
  by_cases hknown : (s.instrumentIsPrepared k.instrument ||
      !(s.physical k.instrument || s.thermalPlants.contains k.instrument)) = true
  · rw [if_pos hknown]
    exact .stop _
  rw [if_neg hknown]
  refine .bind (output_quiet nofun nofun) fun _ => .bind .get fun s => ?_
  cases s.outputs.get k with
  | none => exact .stop _
  | some authority =>
    dsimp only
    by_cases hstale : authority.snapshot.instanceId ≠ expectedInstance ∨ authority.snapshot.epoch ≠ expectedEpoch
    · rw [if_pos hstale]
      exact .stop _
    rw [if_neg hstale]
    by_cases hheld : (s.warmingOn k || authority.snapshot.lease.any (fun lease => decide (lease.owner ≠ .manual owner))) = true
    · rw [if_pos hheld]
      exact .stop _
    rw [if_neg hheld]
    have howner : ∀ lease, authority.snapshot.lease = some lease → lease.owner = .manual owner := by
      intro lease hlease
      by_contra hne
      exact hheld (by simp [hlease, hne])
    have hother : ∀ result : Except Error OutputCommand, (∀ c, result = .ok c → (∀ proposal, c ≠ .propose proposal) ∧ c ≠ .beginDispatch) →
        Procedure.Moves (Evolves P) (do
          let command ← attempt result
          let _ ← output k command now : Step σ Unit) := by
      intro result hquiet
      cases result with
      | error error => exact fun s => refl_of (Evolves P) s
      | ok c =>
        obtain ⟨hpropose, hbegin⟩ := hquiet c rfl
        have hcommand : Procedure.Moves (Evolves P) (do
            let _ ← output k c now : Step σ Unit) := .bind (output_quiet hpropose hbegin) fun _ => .pure _
        exact hcommand
    cases command with
    | write value ttl => exact manualWrite_evolves value ttl now (fun hp => hnative hp value ttl rfl) howner
    | acquire lifetime =>
      refine hother _ fun c hc => ?_
      obtain rfl := Except.ok.inj hc
      exact ⟨nofun, nofun⟩
    | renew lifetime =>
      refine hother _ fun c hc => ?_
      unfold manualAuthorityCommand at hc
      cases hlease : authority.snapshot.lease with
      | none => simp [hlease] at hc
      | some lease =>
        simp only [hlease] at hc
        obtain rfl := Except.ok.inj hc
        exact ⟨nofun, nofun⟩
    | safe =>
      refine hother _ fun c hc => ?_
      obtain rfl := Except.ok.inj hc
      exact ⟨nofun, nofun⟩

end LabRuntime.Runtime
