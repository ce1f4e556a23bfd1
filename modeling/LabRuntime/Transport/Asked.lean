import LabRuntime.Transport.Executor

/-! What one poll does to the environment of its authorizer: nothing, or one start is asked for. Validating
is assumed to leave the environment alone. -/

namespace LabRuntime.ResourceExecutor

variable {σ ρ : Type} {A : ByteTransport σ}
  {auth : ρ → OutputIntent → AuthorizationStep → Except Unit (Option DispatchId) × ρ}

/-- The environment after a poll. -/
inductive Asked (auth : ρ → OutputIntent → AuthorizationStep → Except Unit (Option DispatchId) × ρ) (r : ρ) : ρ → Prop
  | silent : Asked auth r r
  | started (intent : OutputIntent) : Asked auth r (auth r intent .started).2

variable (auth) in
theorem authorize_eq (w : σ × ρ) (intent : OutputIntent) (step : AuthorizationStep) : ∃ answer w',
    (A.boundary auth).authorize w intent step = (answer, w') ∧ w'.2 = (auth w.2 intent step).2 := ⟨_, _, rfl, rfl⟩

variable (auth) in
theorem tryWrite_eq (w : σ × ρ) (offer : Offer) : ∃ result w',
    (A.boundary auth).tryWrite w offer = (result, w') ∧ w'.2 = w.2 := ⟨_, _, rfl, rfl⟩

variable (auth) in
theorem tryRead_eq (w : σ × ρ) (id length : ℕ) : ∃ result buffer w',
    (A.boundary auth).tryRead w id length = (result, buffer, w') ∧ w'.2 = w.2 := ⟨_, _, _, rfl, rfl⟩

variable (auth) in
theorem tryRecover_eq (w : σ × ρ) : ∃ result w', (A.boundary auth).tryRecover w = (result, w') ∧ w'.2 = w.2 :=
  ⟨_, _, rfl, rfl⟩

theorem acceptBytes_asked (s : ResourceExecutor) (w : σ × ρ) (active : Active) (count now : ℕ) :
    Asked auth w.2 (s.acceptBytes (A.boundary auth) w active count now).2.2 := by
  unfold acceptBytes
  dsimp only
  split_ifs
  · cases active.transaction.kind with
    | read => exact .silent
    | output output =>
      obtain ⟨answer, w', heq, hw⟩ := authorize_eq (A := A) auth w output.intent .started
      have hasked : Asked auth w.2 w'.2 := hw ▸ .started _
      dsimp only
      rw [heq]
      rcases answer with _ | (_ | _) <;> exact hasked
  · exact .silent

theorem offerRequest_asked (s : ResourceExecutor) (w : σ × ρ) (active : Active) (now : ℕ) :
    Asked auth w.2 (s.offerRequest (A.boundary auth) w active now).2.2 := by
  unfold offerRequest
  obtain ⟨result, w', heq, hw⟩ := tryWrite_eq (A := A) auth w active.offer
  rw [heq, ← hw]
  cases result with
  | error e => exact .silent
  | ok count =>
    dsimp only
    split_ifs
    · exact s.acceptBytes_asked w' active count now
    · exact .silent

theorem writeRequest_asked (hval : ∀ r i, (auth r i .validate).2 = r) (s : ResourceExecutor) (w : σ × ρ) (active : Active)
    (now : ℕ) : Asked auth w.2 (s.writeRequest (A.boundary auth) w active now).2.2 := by
  unfold writeRequest
  split_ifs
  · cases active.transaction.kind with
    | read => exact s.offerRequest_asked w active now
    | output output =>
      obtain ⟨answer, w', heq, hw⟩ := authorize_eq (A := A) auth w output.intent .validate
      rw [hval] at hw
      dsimp only
      rw [heq, ← hw]
      cases answer with
      | error e => exact .silent
      | ok dispatch => exact s.offerRequest_asked w' active now
  · exact s.offerRequest_asked w active now

theorem readResponse_silent (s : ResourceExecutor) (w : σ × ρ) (active : Active) (now : ℕ) :
    (s.readResponse (A.boundary auth) w active now).2.2 = w.2 := by
  unfold readResponse
  split_ifs
  · obtain ⟨result, buffer, w', heq, hw⟩ := tryRead_eq (A := A) auth w active.transaction.id (active.missing + 1)
    rw [heq]
    cases result with
    | error e => exact hw
    | ok count =>
      dsimp only
      split_ifs <;> exact hw
  · rfl

theorem progressActive_asked (hval : ∀ r i, (auth r i .validate).2 = r) (s : ResourceExecutor) (w : σ × ρ)
    (active : Active) (now : ℕ) : Asked auth w.2 (s.progressActive (A.boundary auth) w active now).2.2 := by
  unfold progressActive
  split_ifs
  · exact .silent
  · have hwrite := s.writeRequest_asked (A := A) hval w active now
    rcases hres : s.writeRequest (A.boundary auth) w active now with ⟨turn | active', w'⟩ <;> rw [hres] at hwrite
    · exact hwrite
    · dsimp only
      rw [readResponse_silent]
      exact hwrite
  · rw [readResponse_silent]
    exact .silent

theorem progressRecovery_asked (s : ResourceExecutor) (w : σ × ρ) (recovery : Recovery) (now : ℕ) :
    Asked auth w.2 (s.progressRecovery (A.boundary auth) w recovery now).2.2 := by
  obtain ⟨result, w', heq, hw⟩ := tryRecover_eq (A := A) auth w
  have hrecovered : Asked auth w.2 w'.2 := hw ▸ .silent
  unfold progressRecovery
  dsimp only
  by_cases hlate : now ≥ recovery.deadline
  · rw [if_pos hlate]
    exact .silent
  · rw [if_neg hlate, heq]
    rcases result with _ | (_ | _)
    · exact hrecovered
    · exact hrecovered
    · cases s.nextGeneration with
      | error e => exact hrecovered
      | ok s' =>
        dsimp only
        by_cases hretry : recovery.transaction.retryable ∧ recovery.transaction.retries = 0 ∧
            now < recovery.transaction.queueDeadline
        · rw [if_pos hretry]
          exact hrecovered
        · rw [if_neg hretry]
          exact hrecovered

theorem progressProtocolRecovery_asked (s : ResourceExecutor) (w : σ × ρ) (deadline now : ℕ) :
    Asked auth w.2 (s.progressProtocolRecovery (A.boundary auth) w deadline now).2.2 := by
  obtain ⟨result, w', heq, hw⟩ := tryRecover_eq (A := A) auth w
  have hrecovered : Asked auth w.2 w'.2 := hw ▸ .silent
  unfold progressProtocolRecovery
  split_ifs
  · exact .silent
  · rw [heq]
    rcases result with _ | (_ | _)
    · exact hrecovered
    · exact hrecovered
    · cases s.nextGeneration <;> exact hrecovered

theorem progress_asked (hval : ∀ r i, (auth r i .validate).2 = r) (s : ResourceExecutor) (w : σ × ρ) (state : OwnedState)
    (now : ℕ) : Asked auth w.2 (progress (A.boundary auth) s w state now).2.2 := by
  cases state with
  | idle =>
    unfold progress startOrRemainIdle
    rcases s.takeNext with ⟨_ | transaction, s'⟩
    · exact .silent
    · dsimp only
      by_cases hlate : now ≥ transaction.queueDeadline
      · rw [if_pos hlate]
        exact .silent
      · rw [if_neg hlate]
        cases durationAdd now transaction.timeout with
        | none => exact .silent
        | some deadline => exact s'.progressActive_asked hval w _ now
  | active active => exact s.progressActive_asked hval w active now
  | recovering recovery => exact s.progressRecovery_asked w recovery now
  | protocolRecovery deadline => exact s.progressProtocolRecovery_asked w deadline now
  | offline => exact .silent

/-- A poll asks for at most one start. -/
theorem pollAuthorized_asked (hval : ∀ r i, (auth r i .validate).2 = r) (s : ResourceExecutor) (w : σ × ρ) (now : ℕ) :
    Asked auth w.2 (s.pollAuthorized (A.boundary auth) w now).2.2 := by
  unfold pollAuthorized
  split_ifs
  · exact .silent
  · dsimp only
    cases hevents : s.events with
    | cons event rest => exact .silent
    | nil =>
      have hprogress := progress_asked (A := A) hval { s with lastPoll := now, state := .idle } w s.state now
      dsimp only
      rw [hevents] at hprogress
      rcases hturn : progress (A.boundary auth) _ w s.state now with ⟨⟨_ | _, s'⟩, w'⟩ <;>
        (rw [hturn] at hprogress; exact hprogress)

end LabRuntime.ResourceExecutor
