import LabRuntime.Output.Send

/-! A safe write reported uncertain is not sent again: either the resend block is set, or the
epoch counter is exhausted with no safe obligation left. The one gap is the error exit of a
safe request at the last epoch while a newer safe obligation is outstanding. -/

namespace LabRuntime

namespace Permission

variable {c c' : Permission} {now : ℕ} {op : AuthorityOp} {r : Except Error AuthorityReply}

/-- No epoch is left for a lease, and nothing is owed, queued or reserved. -/
structure Spent (c : Permission) : Prop where
  counter : ¬ c.epoch < u64Max
  obligation : c.obligation = false
  lease : c.lease = none
  pending : c.pending = none
  reserved : c.reserved = none

theorem Spent.exhaust (h : c.Spent) : c.exhaust.Spent :=
  { h with lease := rfl, pending := rfl }

theorem Spent.settle (h : c.Spent) : c.settle.Spent := { h with }

theorem Spent.distrust (h : c.Spent) (d : Dispatch) : (c.distrust d).Spent := by
  rw [Permission.distrust, if_neg fun hd => h.counter hd.2, revoke_of_not_lt h.counter]
  exact h.exhaust

theorem Spent.change (h : c.Spent) (hc : c.Change now op r c') : c'.Spent := by
  cases hc with
  | rejected | observed | ticked => exact h
  | dropped => exact { h with pending := rfl }
  | latched => exact h.exhaust
  | bound _ _ _ _ _ counter => exact absurd counter h.counter
  | armed _ _ counter => exact absurd counter h.counter
  | renewed _ holds => cases h.lease.symm.trans holds.stored
  | queued holds => cases h.lease.symm.trans holds.stored
  | begun _ _ _ _ source =>
    rcases source with ⟨ho, -⟩ | ⟨-, -, p, hp, -⟩
    · cases h.obligation.symm.trans ho
    · cases h.pending.symm.trans hp
  | reserved _ _ _ source =>
    rcases source with ⟨ho, -⟩ | ⟨-, -, p, hp, -⟩
    · cases h.obligation.symm.trans ho
    · cases h.pending.symm.trans hp
  | sent _ reservation => cases h.reserved.symm.trans reservation
  | withdrawn _ reservation => cases h.reserved.symm.trans reservation
  | cleared => exact { h with }
  | completed _ _ _ settled => cases settled <;> exact { h with }

theorem Spent.revocation (h : c.Spent) (hc : c.Revocation op c') : c'.Spent := by
  cases hc with
  | requested fault => rw [revoke_of_not_lt h.counter]; exact h.exhaust
  | uncertain => exact h.distrust _
  | failed => exact h.settle.distrust _

/-- Nothing can be sent any more: the resend block is set, or no epoch and no obligation is left. -/
def Dead (c : Permission) : Prop := c.Blocked ∨ c.Spent

/-- An uncertain safe dispatch leaves a dead authority, unless the last epoch meets an obligation. -/
theorem Wf.dead_of_distrust (h : c.Wf) {d : Dispatch} (hs : d.safe = true) (hr : c.reserved = none)
    (hc : c.epoch < u64Max ∨ c.obligation = false ∨ c.blocked = true) : (c.distrust d).Dead := by
  by_cases he : c.epoch < u64Max
  · refine .inl ?_
    rw [Permission.distrust, if_pos ⟨hs, he⟩, revoke_of_lt he]
    exact { flag := rfl, obligation := rfl, lease := rfl, pending := rfl, reserved := rfl, state := rfl,
            unconfirmed := rfl, obsolete := fun d hd => Nat.lt_succ_of_le (h.flight d hd).1 }
  · rcases hc with hc | hc | hc
    · exact absurd hc he
    · refine .inr ?_
      rw [Permission.distrust, if_neg fun hd => he hd.2, revoke_of_not_lt he]
      exact { counter := he, obligation := hc, lease := rfl, pending := rfl, reserved := hr }
    · exact .inl ((h.blocked hc).distrust d)

end Permission

namespace OutputAuthority
open History Permission

variable {s : OutputAuthority} {call : AuthorityCall} {d : Dispatch}

theorem dead_stable : Stable step (fun s => s.permission.Dead) := by
  intro s call h
  by_cases hr : s.Revokes call
  · exact h.imp (·.revocation (step_revocation hr)) (·.revocation (step_revocation hr))
  · exact h.imp (·.change (step_change hr)) (·.change (step_change hr))

theorem dead_of_reports (hw : s.permission.Wf) (h : s.Reports call d) (hs : d.safe = true)
    (hc : s.snapshot.epoch < u64Max ∨ s.safeObligationPending = false ∨ s.ambiguousSafeResendBlocked = true) :
    (s.step call).permission.Dead := by
  have hr : s.permission.reserved = none := by
    refine hw.exclusive ?_
    rcases h with ⟨hf, -⟩ | ⟨_, ⟨hf, -⟩, -⟩ <;> rw [show s.permission.inFlight = some d from hf] <;> rfl
  rcases h with ⟨hf, hop⟩ | ⟨outcome, hd, ho⟩
  · have hstep : (s.step call).permission = s.permission.distrust d := by
      rw [← s.transportUncertain_permission hf]
      simp only [step, apply, hop, reply_snd]
    rw [hstep]
    exact hw.dead_of_distrust hs hr hc
  · rw [step_failed hd ho]
    exact hw.settle.dead_of_distrust hs hr hc

theorem not_starts_of_dead (h : s.permission.Dead) : ¬ s.Starts call d := fun hstart => by
  obtain ⟨-, -, -, hcheck⟩ := hstart.check
  obtain ⟨op, now⟩ := call
  dsimp only at hcheck
  rcases h with h | h
  · cases hcheck with
    | simulated source =>
      rcases source with ⟨-, hb, -⟩ | ⟨ho, -⟩
      · cases hb.symm.trans h.flag
      · cases ho.symm.trans h.obligation
    | transport reservation => cases h.reserved.symm.trans reservation
  · cases hcheck with
    | simulated source =>
      rcases source with ⟨ho, -⟩ | ⟨-, -, p, hp, -⟩
      · cases h.obligation.symm.trans ho
      · cases h.pending.symm.trans hp
    | transport reservation => cases h.reserved.symm.trans reservation

theorem not_acquires_of_dead (h : s.permission.Dead) : ¬ s.Acquires call := fun hacq => by
  rcases h with h | h
  · cases h.unconfirmed.symm.trans hacq.check.2.1
  · exact h.counter hacq.check.2.2.1

/-- An uncertain safe write is never resent. -/
theorem safe_write_never_resent (instanceId : ℕ) (actuator : ActuatorId) (limits : ValueSpec)
    (unit : EngineeringUnit) (calls later : List AuthorityCall) (report call : AuthorityCall) (d : Dispatch) :
    let init := new instanceId actuator limits unit
    let s := run init calls
    s.Reports report d → d.safe = true →
    (s.snapshot.epoch < u64Max ∨ s.safeObligationPending = false ∨ s.ambiguousSafeResendBlocked = true) →
    (∀ d', ¬ (run init (calls ++ report :: later)).Starts call d') ∧
      ¬ (run init (calls ++ report :: later)).Acquires call := by
  intro init s hreport hsafe hc
  have hdead := dead_stable.after (dead_of_reports (wf_run ..) hreport hsafe hc) later
  have hrun : run init (calls ++ report :: later) = after step (s.step report) later := by
    simp [run, s]
  rw [hrun]
  exact ⟨fun d' => not_starts_of_dead hdead, not_acquires_of_dead hdead⟩

theorem safe_write_never_resent_heater :
    ¬ (run heater (heaterCalls.take 3 ++ ⟨.transportUncertain ⟨1, 1⟩, 0⟩ ::
      [⟨.command (.complete ⟨1, 1⟩ .readbackVerified), 0⟩])).Acquires
        ⟨.command (.acquire (.automatic 1) (fromSecs 1)), 0⟩ :=
  (safe_write_never_resent 1 ⟨1, 2⟩ (.float ⟨0⟩ ⟨0x4059000000000000⟩) .percent (heaterCalls.take 3)
    [⟨.command (.complete ⟨1, 1⟩ .readbackVerified), 0⟩] ⟨.transportUncertain ⟨1, 1⟩, 0⟩
    ⟨.command (.acquire (.automatic 1) (fromSecs 1)), 0⟩ { id := ⟨1, 1⟩, value := ⟨0⟩, safe := true, epoch := 2 }
    (.inl ⟨by decide, rfl⟩) rfl (.inl (by decide))).2

/-! ### The last epoch -/

/-- The heater after its profile was bound and safe output was requested up to the epoch `e`. -/
def heaterPending (e : ℕ) : OutputAuthority :=
  { heater with
    snapshot := { heater.snapshot with
      profile := some heaterProfile, state := .safePending, epoch := e }
    safeObligationPending := true }

theorem heater_request (e : ℕ) (h : e < u64Max) :
    (heaterPending e).step ⟨.command .requestSafe, 0⟩ = heaterPending (e + 1) := by
  have he : (heaterPending e).failManualBeforeSend.bumpEpoch =
      (.ok (), { heaterPending e with snapshot := { (heaterPending e).snapshot with epoch := e + 1 } }) :=
    bumpEpoch_of_lt (heaterPending e) h
  have hr : (heaterPending e).requestSafe false = (.ok (), heaterPending (e + 1)) := by
    rw [requestSafe, he]
    rfl
  have hp : (heaterPending e).profile = .ok heaterProfile := rfl
  simp only [step, apply, reply, command, hp, hr]

theorem heater_requests (n : ℕ) (h : n + 2 ≤ u64Max) :
    run heater (⟨.command (.bindProfile heaterProfile), 0⟩ ::
      List.replicate (n + 1) ⟨.command .requestSafe, 0⟩) = heaterPending (n + 2) := by
  induction n with
  | zero => rfl
  | succ n ih =>
    have ih := ih (by omega)
    rw [run, after_cons] at ih ⊢
    rw [after_replicate_succ, ih, heater_request _ (by omega)]

/-- The profile, safe requests up to the last epoch but one, the safe send, and one more request. -/
def heaterResent : List AuthorityCall :=
  ⟨.command (.bindProfile heaterProfile), 0⟩ :: List.replicate (u64Max - 3 + 1) ⟨.command .requestSafe, 0⟩ ++
    [⟨.command .beginDispatch, 0⟩, ⟨.command .requestSafe, 0⟩]

theorem run_heaterResent : run heater heaterResent =
    run (heaterPending (u64Max - 1)) [⟨.command .beginDispatch, 0⟩, ⟨.command .requestSafe, 0⟩] := by
  have h := heater_requests (u64Max - 3) (by decide)
  rw [run] at h
  rw [run, heaterResent, after_append, h]
  rfl

/-- At the last epoch the error exit of a safe request skips the resend block: the failed safe
write, with a newer safe obligation outstanding, is sent again. -/
theorem safe_write_resent_at_last_epoch :
    (run heater heaterResent).Reports ⟨.command (.complete ⟨1, 1⟩ .failed), 0⟩
      { id := ⟨1, 1⟩, value := ⟨0⟩, safe := true, epoch := u64Max - 1 } ∧
    (run heater (heaterResent ++ [⟨.command (.complete ⟨1, 1⟩ .failed), 0⟩])).Starts
      ⟨.command .beginDispatch, 0⟩ { id := ⟨1, 2⟩, value := ⟨0⟩, safe := true, epoch := u64Max } := by
  constructor
  · rw [run_heaterResent]
    exact .inr ⟨.failed, ⟨by decide +kernel, by decide⟩, rfl⟩
  · rw [run_append, run_heaterResent]
    exact ⟨.inl rfl, by decide +kernel, by decide +kernel⟩

end OutputAuthority
end LabRuntime
