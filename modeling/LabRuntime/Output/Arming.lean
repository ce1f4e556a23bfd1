import LabRuntime.Output.SafeResend

/-! Arming rests on current safe evidence: what a confirmed authority no longer holds, and the
safe dispatch that confirmed it. -/

namespace LabRuntime

@[simp] theorem Permission.revoke_inFlight {c : Permission} {fault : Bool} :
    (c.revoke fault).inFlight = c.inFlight := by
  unfold revoke; split_ifs <;> rfl

@[simp] theorem Permission.revoke_unconfirmed {c : Permission} {fault : Bool} :
    (c.revoke fault).safeConfirmed = false := by
  unfold revoke; split_ifs <;> rfl

namespace OutputAuthority
open History Permission

variable {s : OutputAuthority} {call : AuthorityCall} {d : Dispatch}

theorem Binds.settled (h : s.Binds call) : s.snapshot.inFlight = none := by
  obtain ⟨p, hop, hok⟩ := h
  obtain ⟨op, now⟩ := call
  dsimp only at hop
  subst hop
  have hr : ¬ s.Revokes ⟨.command (.bindProfile p), now⟩ := not_revokes rfl
  have hc := step_change hr
  rw [hok] at hc
  generalize (s.step ⟨_, now⟩).permission = c' at hc
  dsimp only at hc
  cases hc with
  | bound state settled => exact settled
  | renewed renews => obtain ⟨_, h | h⟩ := renews <;> cases h
  | completed flight completes => cases completes

/-- A dispatch in flight was started by this call or was in flight before it. -/
theorem flight_step (h : (s.step call).snapshot.inFlight = some d) :
    s.Starts call d ∨ (s.snapshot.inFlight = some d ∧ ∀ d', ¬ s.Starts call d') := by
  by_cases hstart : ∃ d', s.Starts call d'
  · obtain ⟨d', hd'⟩ := hstart
    obtain rfl : d' = d := Option.some.inj (hd'.2.2.symm.trans h)
    exact .inl hd'
  refine .inr ⟨?_, not_exists.1 hstart⟩
  have h' : (s.step call).permission.inFlight = some d := h
  by_cases hr : s.Revokes call
  · have hc := step_revocation hr
    generalize (s.step call).permission = c' at hc h'
    obtain ⟨op, now⟩ := call
    dsimp only at hc
    cases hc with
    | requested fault => exact revoke_inFlight.symm.trans h'
    | uncertain => rw [distrust_eq] at h'; exact revoke_inFlight.symm.trans h'
    | failed => rw [distrust_eq] at h'; cases (revoke_inFlight (c := s.permission.settle)).symm.trans h'
  · have hc := step_change hr
    generalize (s.step call).permission = c' at hc h'
    generalize hreply : (s.apply call).1 = r at hc
    obtain ⟨op, now⟩ := call
    dsimp only at hc
    cases hc with
    | begun => exact absurd ⟨d, .inl rfl, by rw [hreply]; rfl, h⟩ hstart
    | sent => exact absurd ⟨d, .inr ⟨_, rfl⟩, by rw [hreply]; rfl, h⟩ hstart
    | withdrawn => split_ifs at h' <;> exact h'
    | completed _ _ _ settled => cases settled <;> cases h'
    | _ => exact h'

/-- What the safe evidence of an earlier send does not survive. -/
def Supersedes (s : OutputAuthority) (call : AuthorityCall) : Prop :=
  s.Binds call ∨ (s.step call).snapshot.epoch ≠ s.snapshot.epoch ∨ ∃ d, s.Starts call d

/-- A revocation attempted with no epoch left, while a safe dispatch of that epoch is in flight. -/
def RevokesTooLate (s : OutputAuthority) (call : AuthorityCall) : Prop :=
  s.Revokes call ∧ ¬ s.snapshot.epoch < u64Max ∧
    ∃ d, s.snapshot.inFlight = some d ∧ d.safe = true ∧ d.epoch = s.snapshot.epoch

/-- The safe dispatch in flight in its own epoch was started, and no `Q` came since, for any `Q`
that excludes it or that is one of the events `P` the run does not have. -/
theorem safe_flight_since {init : OutputAuthority} {P Q : OutputAuthority → AuthorityCall → Prop}
    (hinit : init.snapshot.inFlight = none) (hwf : init.permission.Wf)
    (hQ : ∀ s call, s.snapshot.inFlight = some d → d.epoch = s.snapshot.epoch →
      (s.step call).snapshot.epoch = s.snapshot.epoch → (∀ d', ¬ s.Starts call d') → Q s call → P s call)
    {calls : List AuthorityCall} (hno : ¬ Happens step P init calls)
    (h : (run init calls).snapshot.inFlight = some d) (he : d.epoch = (run init calls).snapshot.epoch) :
    Since step (fun s c => s.Starts c d) Q init calls := by
  induction calls using List.reverseRecOn with
  | nil => cases hinit.symm.trans h
  | append_singleton calls call ih =>
    rw [run_append] at h he
    rw [happens_snoc, not_or] at hno
    rcases flight_step (s := run init calls) h with hs | ⟨hf, hs⟩
    · exact .last call hs
    · have hwf' : (run init calls).permission.Wf := run_stable wf_step hwf calls
      have hle : d.epoch ≤ (run init calls).snapshot.epoch := (hwf'.flight d hf).1
      have hge := (step_follows (run init calls) call).epoch
      have hstep : ((run init calls).step call).snapshot.epoch = (run init calls).snapshot.epoch :=
        le_antisymm (he ▸ hle) hge
      have he' : d.epoch = (run init calls).snapshot.epoch := he.trans hstep
      exact (ih hno.1 hf he').snoc call fun hq => hno.2 (hQ _ _ hf he' hstep hs hq)

/-- A confirmation is a completion, with the evidence the profile requires, of the safe dispatch in
flight in its own epoch. -/
theorem confirm_step (hw : s.permission.Wf) (h : s.snapshot.safeConfirmed = false)
    (h' : (s.step call).snapshot.safeConfirmed = true) :
    ∃ d outcome p, s.Completes call d outcome ∧ d.safe = true ∧ d.epoch = s.snapshot.epoch ∧
      s.snapshot.profile = some p ∧ (outcome = .readbackVerified ∨
        outcome = .acknowledged ∧ p.requiredEvidence = .acknowledgement) := by
  have hn : s.permission.safeConfirmed = false := h
  have h1 : (s.step call).permission.safeConfirmed = true := h'
  by_cases hr : s.Revokes call
  · have hc := step_revocation hr
    have hno : (s.step call).permission.safeConfirmed = false := by
      generalize (s.step call).permission = c' at hc
      obtain ⟨op, now⟩ := call
      dsimp only at hc
      cases hc with
      | requested fault => exact revoke_unconfirmed
      | uncertain => rw [distrust_eq]; exact revoke_unconfirmed
      | failed => rw [distrust_eq]; exact revoke_unconfirmed
    cases hno.symm.trans h1
  · have hc := step_change hr
    generalize (s.step call).permission = c' at hc h1
    generalize (s.apply call).1 = r at hc
    obtain ⟨op, now⟩ := call
    dsimp only at hc
    cases hc with
    | sent => split_ifs at h1 <;> cases h1
    | withdrawn => split_ifs at h1 <;> cases hn.symm.trans h1
    | cleared state safe => cases hn.symm.trans safe
    | completed flight completes known settled =>
      cases settled with
      | old => cases hn.symm.trans h1
      | @current sufficient safe epoch evidence =>
        have hp : s.permission.profile ≠ none := fun hp => by
          cases (hw.unprofiled hp).2.1.symm.trans flight
        obtain ⟨p, hp⟩ := Option.ne_none_iff_exists'.1 hp
        refine ⟨_, _, p, ⟨flight, completes⟩, safe, epoch, hp, (evidence h1).imp id ?_⟩
        rintro ⟨ho, q, hq, he⟩
        exact ⟨ho, by rw [Option.some.inj (hp.symm.trans hq)]; exact he⟩
    | _ => first | cases h1 | cases hn.symm.trans h1

/-- Arming requires current safe evidence. (a) A lease is there exactly in the armed states, bound to
this authority and epoch, and never under a latched fault; (b) a confirmed authority holds no lease,
queue entry, reservation, dispatch or obligation; (c) it was confirmed by the sufficient completion
of a safe dispatch after whose start no profile was bound, no epoch began and nothing was sent, nor
even a revocation refused, unless one met the exhausted counter with that dispatch in flight.
Hence an acquisition never finds work outstanding. -/
theorem arming_requires_safe_evidence (instanceId : ℕ) (actuator : ActuatorId) (limits : ValueSpec)
    (unit : EngineeringUnit) (calls : List AuthorityCall) (call : AuthorityCall) :
    let init := new instanceId actuator limits unit
    let s := run init calls
    ((s.snapshot.lease.isSome = true ↔ s.snapshot.state = .armedManual ∨ s.snapshot.state = .armedAuto) ∧
      ∀ l, s.snapshot.lease = some l →
        l.epoch = s.snapshot.epoch ∧ l.instanceId = s.instanceId ∧ s.snapshot.faultLatched = false) ∧
    (s.snapshot.safeConfirmed = true → s.snapshot.lease = none ∧ s.pending = none ∧
      s.transportReserved = none ∧ s.snapshot.inFlight = none ∧ s.safeObligationPending = false) ∧
    (s.snapshot.safeConfirmed = false → (s.step call).snapshot.safeConfirmed = true →
      ∃ d outcome p, s.Completes call d outcome ∧ d.safe = true ∧ s.snapshot.profile = some p ∧
        (outcome = .readbackVerified ∨ outcome = .acknowledged ∧ p.requiredEvidence = .acknowledgement) ∧
        Since step (fun s c => s.Starts c d) Supersedes init calls ∧
        (¬ Happens step RevokesTooLate init calls →
          Since step (fun s c => s.Starts c d) (fun s c => s.Supersedes c ∨ s.Revokes c) init calls)) ∧
    (s.Acquires call → s.snapshot.inFlight = none ∧ s.transportReserved = none ∧ s.pending = none ∧
      s.safeObligationPending = false) := by
  intro init s
  have hw : s.permission.Wf := wf_run ..
  refine ⟨⟨?_, fun l hl => ?_⟩, fun hc => ?_, fun h h' => ?_, fun ha => ?_⟩
  · rw [show s.snapshot.lease.isSome = s.snapshot.state.armed from hw.leased]
    cases s.snapshot.state <;> simp [OutputState.armed]
  · have := hw.current l hl
    exact ⟨this.2.2, this.2.1, hw.unlatched (.inl (by rw [show s.permission.lease = some l from hl]; rfl))⟩
  · obtain ⟨hl, hr, hf, ho⟩ := hw.confirmed hc
    exact ⟨hl, hw.unqueued hl, hr, hf, ho⟩
  · obtain ⟨d, outcome, p, hc, hs, he, hp, hev⟩ := confirm_step hw h h'
    refine ⟨d, outcome, p, hc, hs, hp, hev, ?_, fun hno => ?_⟩
    · refine safe_flight_since (P := fun _ _ => False) rfl (wf_new ..) ?_ (fun ⟨_, _, _, _, h⟩ => h) hc.1 he
      rintro t c hf - hepoch hsent (hb | hn | hd)
      · cases hb.settled.symm.trans hf
      · exact hn hepoch
      · exact hsent _ hd.choose_spec
    · refine safe_flight_since (P := RevokesTooLate) rfl (wf_new ..) ?_ hno hc.1 he
      rintro t c hf he' hepoch hsent ((hb | hn | hd) | hr)
      · cases hb.settled.symm.trans hf
      · exact absurd hepoch hn
      · exact absurd hd.choose_spec (hsent _)
      · refine ⟨hr, fun hlt => ?_, d, hf, hs, he'⟩
        have hnext : (t.step c).snapshot.epoch = t.snapshot.epoch + 1 := (step_revocation hr).epoch hlt
        omega
  · obtain ⟨-, hc, -⟩ := ha.check
    obtain ⟨hl, hr, hf, ho⟩ := hw.confirmed hc
    exact ⟨hf, hr, hw.unqueued hl, ho⟩

/-- The heater's safe readback confirms it, on evidence nothing has superseded. -/
theorem arming_requires_safe_evidence_heater :
    ∃ d, d.safe = true ∧ Since step (fun s c => s.Starts c d) (fun s c => s.Supersedes c ∨ s.Revokes c)
      heater (heaterCalls.take 3) := by
  have h := (arming_requires_safe_evidence 1 ⟨1, 2⟩ (.float ⟨0⟩ ⟨0x4059000000000000⟩) .percent
    (heaterCalls.take 3) ⟨.command (.complete ⟨1, 1⟩ .readbackVerified), 0⟩).2.2.1 (by decide) (by decide)
  obtain ⟨d, -, -, -, hs, -, -, -, hsince⟩ := h
  refine ⟨d, hs, hsince ?_⟩
  simp only [heaterCalls, List.take_succ_cons, List.take_zero, happens_cons, not_happens_nil, or_false]
  rintro (⟨-, h, -⟩ | ⟨-, h, -⟩ | ⟨-, h, -⟩) <;> exact h (by decide)

/-- The profile, safe requests up to the last epoch, and the safe send. -/
def heaterLast : List AuthorityCall :=
  ⟨.command (.bindProfile heaterProfile), 0⟩ :: List.replicate (u64Max - 2 + 1) ⟨.command .requestSafe, 0⟩ ++
    [⟨.command .beginDispatch, 0⟩]

theorem run_heaterLast :
    run heater heaterLast = run (heaterPending u64Max) [⟨.command .beginDispatch, 0⟩] := by
  rw [heaterLast, run_append, heater_requests _ (by decide)]
  rfl

/-- At the last epoch a safe request is refused, and the older safe dispatch still confirms: no
started send has its evidence later than that revocation. -/
theorem obsolete_evidence_confirms_at_last_epoch :
    (run heater (heaterLast ++ [⟨.command .requestSafe, 0⟩])).snapshot.safeConfirmed = false ∧
      ((run heater (heaterLast ++ [⟨.command .requestSafe, 0⟩])).step
        ⟨.command (.complete ⟨1, 1⟩ .readbackVerified), 0⟩).snapshot.safeConfirmed = true ∧
      ∀ d, ¬ Since step (fun s c => s.Starts c d) (fun s c => s.Supersedes c ∨ s.Revokes c)
        heater (heaterLast ++ [⟨.command .requestSafe, 0⟩]) := by
  refine ⟨?_, ?_, fun d hd => ?_⟩
  · rw [run_append, run_heaterLast]; decide +kernel
  · rw [run_append, run_heaterLast]; decide +kernel
  · rcases hd.of_snoc with ⟨h | ⟨i, h⟩, -⟩ | h
    · cases h
    · cases h
    · refine h (.inr ?_)
      rw [show after step heater heaterLast = _ from run_heaterLast]
      rfl

end OutputAuthority
end LabRuntime
