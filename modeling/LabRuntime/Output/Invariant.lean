import LabRuntime.Output.Change

/-! The invariant of every authority reachable from `new`, and the two fences that no later call
undoes: a blocked safe write, and an exhausted epoch counter without a safe obligation. -/

namespace LabRuntime
namespace Permission

variable {c c' : Permission} {now : ℕ} {op : AuthorityOp} {r : Except Error AuthorityReply}

/-- A safe write with an unknown outcome: the obligation stays and nothing may be sent. -/
structure Blocked (c : Permission) : Prop where
  flag : c.blocked = true
  obligation : c.obligation = true
  lease : c.lease = none
  pending : c.pending = none
  reserved : c.reserved = none
  state : c.state = .faultLatched
  unconfirmed : c.safeConfirmed = false
  obsolete : ∀ d, c.inFlight = some d → d.epoch < c.epoch

structure Wf (c : Permission) : Prop where
  profile : ∀ p, c.profile = some p →
    p.isValid = true ∧ c.limits.validate (.float p.min) = .ok () ∧ c.limits.validate (.float p.max) = .ok ()
  unprofiled : c.profile = none → c.state = .unverified ∧ c.inFlight = none ∧ c.epoch = 0
  leased : c.lease.isSome = c.state.armed
  current : ∀ l, c.lease = some l → l.actuator = c.actuator ∧ l.instanceId = c.instanceId ∧ l.epoch = c.epoch
  unlatched : c.lease.isSome = true ∨ c.state = .disarmed → c.faultLatched = false
  queued : ∀ q, c.pending = some q → c.lease = some q.lease
  range : ∀ q p, c.pending = some q → c.profile = some p →
    (ValueSpec.float p.min p.max).validate (.float q.value) = .ok ()
  exclusive : c.inFlight.isSome = true → c.reserved = none
  obliged : c.obligation = true → c.lease = none ∧ (c.state = .safePending ∨ c.state = .faultLatched)
  confirmed : c.safeConfirmed = true →
    c.lease = none ∧ c.reserved = none ∧ c.inFlight = none ∧ c.obligation = false
  flight : ∀ d, c.inFlight = some d → d.epoch ≤ c.epoch ∧
    (d.safe = true → d.epoch = c.epoch → c.lease = none ∧ c.obligation = false)
  blocked : c.blocked = true → c.Blocked

theorem Wf.unqueued (h : c.Wf) (hl : c.lease = none) : c.pending = none :=
  Option.eq_none_iff_forall_ne_some.2 fun q hq => by simpa [hl] using h.queued q hq

theorem Wf.unarmed (h : c.Wf) (hs : c.state.armed = false) : c.lease = none :=
  Option.not_isSome_iff_eq_none.1 (by rw [h.leased, hs]; simp)

/-! ### Blocked stays blocked -/

theorem Blocked.revoke (h : c.Blocked) (fault : Bool) : (c.revoke fault).Blocked := by
  by_cases he : c.epoch < u64Max
  · rw [revoke_of_lt he]
    exact { flag := h.flag, obligation := rfl, lease := rfl, pending := rfl, reserved := rfl,
            state := if_pos h.flag, unconfirmed := rfl,
            obsolete := fun d hd => Nat.lt_succ_of_lt (h.obsolete d hd) }
  · rw [revoke_of_not_lt he]
    exact { flag := h.flag, obligation := h.obligation, lease := rfl, pending := rfl,
            reserved := h.reserved, state := rfl, unconfirmed := rfl, obsolete := h.obsolete }

theorem Blocked.settle (h : c.Blocked) : c.settle.Blocked :=
  { h with obsolete := fun d hd => by cases hd }

theorem Blocked.distrust (h : c.Blocked) (d : Dispatch) : (c.distrust d).Blocked := by
  unfold Permission.distrust
  split_ifs
  · exact { h.revoke true with flag := rfl, state := rfl }
  · exact h.revoke true

theorem Blocked.change (h : c.Blocked) (hc : c.Change now op r c') : c'.Blocked := by
  cases hc with
  | rejected | observed | ticked => exact h
  | dropped => exact { h with pending := rfl }
  | latched => exact { h with lease := rfl, pending := rfl, state := rfl, unconfirmed := rfl }
  | bound state => simp [h.state] at state
  | armed state => simp [h.state] at state
  | renewed _ holds => simpa [h.lease] using holds.stored
  | queued holds => simpa [h.lease] using holds.stored
  | begun _ _ _ _ source =>
    rcases source with ⟨-, hb, -⟩ | ⟨ho, -⟩
    · simp [h.flag] at hb
    · simp [h.obligation] at ho
  | reserved _ _ _ source =>
    rcases source with ⟨-, hb, -⟩ | ⟨ho, -⟩
    · simp [h.flag] at hb
    · simp [h.obligation] at ho
  | sent _ reservation => simp [h.reserved] at reservation
  | withdrawn _ reservation => simp [h.reserved] at reservation
  | cleared _ safe => simp [h.unconfirmed] at safe
  | completed flight _ _ settled =>
    cases settled with
    | old => exact h.settle
    | current _ epoch => exact absurd epoch (h.obsolete _ flight).ne

theorem Blocked.revocation (h : c.Blocked) (hc : c.Revocation op c') : c'.Blocked := by
  cases hc with
  | requested fault => exact h.revoke fault
  | uncertain => exact h.distrust _
  | failed => exact h.settle.distrust _

/-! ### The invariant -/

theorem Wf.clear (h : c.Wf) : c.clear.Wf :=
  { h with
    queued := fun q hq => by cases hq
    range := fun q p hq => by cases hq
    blocked := fun hb => { h.blocked hb with pending := rfl } }

theorem Wf.settle (h : c.Wf) : c.settle.Wf :=
  { h with
    unprofiled := fun hp => ⟨(h.unprofiled hp).1, rfl, (h.unprofiled hp).2.2⟩
    exclusive := fun hf => by cases hf
    confirmed := fun hs => ⟨(h.confirmed hs).1, (h.confirmed hs).2.1, rfl, (h.confirmed hs).2.2.2⟩
    flight := fun d hd => by cases hd
    blocked := fun hb => (h.blocked hb).settle }

theorem Wf.exhaust (h : c.Wf) (hp : c.profile ≠ none) : c.exhaust.Wf where
  profile := h.profile
  unprofiled := fun hn => absurd hn hp
  leased := rfl
  current := fun l hl => by cases hl
  unlatched := fun hl => by rcases hl with hl | hl <;> cases hl
  queued := fun q hq => by cases hq
  range := fun q p hq => by cases hq
  exclusive := h.exclusive
  obliged := fun _ => ⟨rfl, .inr rfl⟩
  confirmed := fun hs => by cases hs
  flight := fun d hd => ⟨(h.flight d hd).1, fun hs he => ⟨rfl, ((h.flight d hd).2 hs he).2⟩⟩
  blocked := fun hb => { h.blocked hb with lease := rfl, pending := rfl, state := rfl, unconfirmed := rfl }

theorem Wf.revoke (h : c.Wf) (hp : c.profile ≠ none) (fault : Bool) : (c.revoke fault).Wf := by
  by_cases he : c.epoch < u64Max
  · have hstate : (c.revoke fault).state = .safePending ∨ (c.revoke fault).state = .faultLatched := by
      rw [revoke_of_lt he]
      cases hb : c.blocked
      · exact .inl rfl
      · exact .inr rfl
    have hblocked := fun hb : c.blocked = true => (h.blocked hb).revoke fault
    rw [revoke_of_lt he] at hstate hblocked ⊢
    exact {
      profile := h.profile
      unprofiled := fun hn => absurd hn hp
      leased := by rcases hstate with hs | hs <;> rw [hs] <;> rfl
      current := fun l hl => by cases hl
      unlatched := fun hl => by
        rcases hl with hl | hl
        · cases hl
        · rcases hstate with hs | hs <;> rw [hs] at hl <;> cases hl
      queued := fun q hq => by cases hq
      range := fun q p hq => by cases hq
      exclusive := fun _ => rfl
      obliged := fun _ => ⟨rfl, hstate⟩
      confirmed := fun hs => by cases hs
      flight := fun d hd =>
        have hlt : d.epoch < c.epoch + 1 := Nat.lt_succ_of_le (h.flight d hd).1
        ⟨hlt.le, fun _ he => absurd he hlt.ne⟩
      blocked := hblocked }
  · rw [revoke_of_not_lt he]
    exact h.exhaust hp

/-- An uncertain send leaves the invariant, and a safe one is blocked from then on. -/
theorem Wf.distrust (h : c.Wf) (hp : c.profile ≠ none) {d : Dispatch} : (c.distrust d).Wf := by
  unfold Permission.distrust
  split_ifs with hd
  · have hr := h.revoke hp true
    have he : c.revoke true = _ := revoke_of_lt hd.2
    refine { hr with
      unprofiled := fun hn => absurd (revoke_profile.symm.trans hn) hp, leased := ?_, unlatched := ?_, obliged := ?_, blocked := ?_ }
    · rw [he]; rfl
    · rw [he]; rintro (hl | hl) <;> cases hl
    · rw [he]; exact fun _ => ⟨rfl, .inr rfl⟩
    · intro _
      rw [he]
      exact { flag := rfl, obligation := rfl, lease := rfl, pending := rfl, reserved := rfl, state := rfl,
              unconfirmed := rfl, obsolete := fun d hd => Nat.lt_succ_of_le (h.flight d hd).1 }
  · exact h.revoke hp true

theorem Wf.holds (h : c.Wf) {l : OutputLease} (hl : c.Holds l now) : c.profile ≠ none := by
  intro hp
  have := hl.armed
  rw [(h.unprofiled hp).1] at this
  cases this

theorem Wf.revocation (h : c.Wf) (hp : c.profile ≠ none) (hc : c.Revocation op c') : c'.Wf := by
  cases hc with
  | requested fault => exact h.revoke hp fault
  | uncertain => exact h.distrust hp
  | failed => exact h.settle.distrust hp

theorem Wf.confirm (h : c.Wf) {d : Dispatch} {sufficient : Bool} (hf : c.inFlight = some d)
    (hs : d.safe = true) (he : d.epoch = c.epoch) : (c.settle.confirm sufficient).Wf := by
  obtain ⟨hl, ho⟩ := (h.flight d hf).2 hs he
  have hp : c.profile ≠ none := fun hn => by simpa [hf] using (h.unprofiled hn).2.1
  have hstate : (c.settle.confirm sufficient).state.armed = false := by
    unfold Permission.confirm; dsimp only; split_ifs <;> rfl
  exact {
    profile := h.profile
    unprofiled := fun hn => absurd hn hp
    leased := by rw [hstate, show (c.settle.confirm sufficient).lease = none from hl]; rfl
    current := h.current
    unlatched := fun hu => by
      rcases hu with hu | hu
      · exact absurd hu (by simp [show (c.settle.confirm sufficient).lease = none from hl])
      · simp only [Permission.confirm] at hu ⊢
        split_ifs at hu with hb
        simpa using hb
    queued := h.queued
    range := h.range
    exclusive := fun hf => by cases hf
    obliged := fun hb => by simp [Permission.confirm, Permission.settle, ho] at hb
    confirmed := fun _ => ⟨hl, h.exclusive (by simp [hf]), rfl, ho⟩
    flight := fun d hd => by cases hd
    blocked := fun hb => absurd he ((h.blocked hb).obsolete d hf).ne }

theorem Wf.unreserve (h : c.Wf) : Wf { c with reserved := none } :=
  { h with
    exclusive := fun _ => rfl
    confirmed := fun hs => ⟨(h.confirmed hs).1, rfl, (h.confirmed hs).2.2⟩
    blocked := fun hb => { h.blocked hb with reserved := rfl } }

theorem Wf.discharge (h : c.Wf) (hb : c.blocked = false) : Wf { c with obligation := false } :=
  { h with
    obliged := fun ho => by cases ho
    confirmed := fun hs => ⟨(h.confirmed hs).1, (h.confirmed hs).2.1, (h.confirmed hs).2.2.1, rfl⟩
    flight := fun d hd => ⟨(h.flight d hd).1, fun hs he => ⟨((h.flight d hd).2 hs he).1, rfl⟩⟩
    blocked := fun hb' => by cases hb.symm.trans hb' }

theorem Wf.launch (h : c.Wf) {d : Dispatch} (hp : c.profile ≠ none) (hr : c.reserved = none)
    (hb : c.blocked = false) (he : d.epoch = c.epoch)
    (hs : d.safe = true → c.lease = none ∧ c.obligation = false) : (c.launch d).Wf :=
  { h with
    unprofiled := fun hn => absurd hn hp
    exclusive := fun _ => hr
    confirmed := fun hc => by cases hc
    flight := fun d' hd => by cases hd; exact ⟨he.le, fun h _ => hs h⟩
    blocked := fun hb' => by cases hb.symm.trans hb' }

theorem Wf.unblocked (h : c.Wf) (ho : c.obligation = false) : c.blocked = false :=
  Bool.eq_false_of_not_eq_true fun hb => by cases ho.symm.trans (h.blocked hb).obligation

theorem Wf.change (h : c.Wf) (hc : c.Change now op r c') : c'.Wf := by
  cases hc with
  | rejected | observed | ticked => exact h
  | dropped => exact h.clear
  | latched idle exhausted =>
    refine h.exhaust fun hp => exhausted ?_
    rw [(h.unprofiled hp).2.2]
    decide
  | @bound p state settled valid low high counter =>
    have hl : c.lease = none := h.unarmed (by rcases state with hs | hs <;> rw [hs] <;> rfl)
    exact {
      profile := fun q hq => by cases hq; exact ⟨valid, low, high⟩
      unprofiled := fun hn => by cases hn
      leased := by show c.lease.isSome = _; rw [hl]; rfl
      current := fun l hl' => by cases hl.symm.trans hl'
      unlatched := fun hu => by
        rcases hu with hu | hu
        · exact absurd hu (by simp [bindProfile, Permission.clear, hl])
        · cases hu
      queued := fun q hq => by cases hq
      range := fun q p hq => by cases hq
      exclusive := h.exclusive
      obliged := fun ho => by
        rcases (h.obliged ho).2 with hs | hs <;> rcases state with hs' | hs' <;> rw [hs] at hs' <;> cases hs'
      confirmed := fun hs => by cases hs
      flight := fun d hd => by cases settled.symm.trans hd
      blocked := fun hb => by
        have := (h.blocked hb).state
        rcases state with hs | hs <;> rw [hs] at this <;> cases this }
  | @armed owner lifetime l state safe counter actuator instanceId owned epoch expires =>
    obtain ⟨hl, hr, hf, ho⟩ := h.confirmed safe
    have hp : c.profile ≠ none := fun hn => by
      have := (h.unprofiled hn).1
      rw [state] at this
      cases this
    exact {
      profile := h.profile
      unprofiled := fun hn => absurd hn hp
      leased := by show true = l.owner.armedState.armed; cases l.owner <;> rfl
      current := fun l' hl' => by cases hl'; exact ⟨actuator, instanceId, rfl⟩
      unlatched := fun _ => h.unlatched (.inr state)
      queued := fun q hq => by cases (h.unqueued hl).symm.trans hq
      range := h.range
      exclusive := h.exclusive
      obliged := fun hb => by cases ho.symm.trans hb
      confirmed := fun hs => by cases hs
      flight := fun d hd => by cases hf.symm.trans hd
      blocked := fun hb => by cases (h.blocked hb).state.symm.trans state }
  | @renewed _ _ l e _ holds queue reservation settled later =>
    have hs : c.lease.isSome = true := by rw [holds.stored]; rfl
    exact { h with
      leased := by rw [← h.leased, hs]; rfl
      current := fun l' hl' => by cases hl'; exact ⟨holds.actuator, holds.instanceId, holds.epoch⟩
      unlatched := fun _ => h.unlatched (.inl hs)
      queued := fun q hq => by cases queue.symm.trans hq
      obliged := fun ho => by cases (h.obliged ho).1.symm.trans holds.stored
      confirmed := fun hc => by cases (h.confirmed hc).1.symm.trans holds.stored
      unprofiled := fun hn => absurd hn (h.holds holds)
      flight := fun d hd => by cases settled.symm.trans hd
      blocked := fun hb => by cases (h.blocked hb).lease.symm.trans holds.stored }
  | @queued proposal v p holds value profile range slot =>
    exact { h with
      queued := fun q hq => by cases hq; exact holds.stored
      range := fun q p' hq hp' => by
        cases hq
        obtain rfl := Option.some.inj (profile.symm.trans hp')
        exact range
      blocked := fun hb => by cases (h.blocked hb).lease.symm.trans holds.stored }
  | begun settled reservation id epoch source =>
    rcases source with ⟨ho, hb, -, p, hp, -⟩ | ⟨ho, hs, p, hq, hl, -, -⟩
    · have hp : c.profile ≠ none := by simp [hp]
      exact (h.clear.discharge hb).launch hp reservation hb epoch fun _ => ⟨(h.obliged ho).1, rfl⟩
    · have hb := h.unblocked ho
      exact (h.clear.discharge hb).launch (h.holds hl) reservation hb epoch
        fun hs' => by cases hs.symm.trans hs'
  | @reserved _ _ _ _ i settled reservation epoch source =>
    have hsafe : c.safeConfirmed = false := Bool.eq_false_of_not_eq_true fun hs => by
      obtain ⟨hl, -, -, ho⟩ := h.confirmed hs
      rcases source with ⟨ho', -⟩ | ⟨-, -, p, -, -, hh, -⟩
      · cases ho.symm.trans ho'
      · cases hl.symm.trans hh.stored
    have hb : c.blocked = false := by
      rcases source with ⟨-, hb, -⟩ | ⟨ho, -⟩
      · exact hb
      · exact h.unblocked ho
    exact { h with
      exclusive := fun hf => by simp [settled] at hf
      confirmed := fun hs => by cases hsafe.symm.trans hs
      blocked := fun hb' => by cases hb.symm.trans hb' }
  | @sent i j d p settled reservation same epoch fresh id dispatched value safe limits profile range source =>
    have hb : c.blocked = false := Bool.eq_false_of_not_eq_true fun hb => by
      cases (h.blocked hb).reserved.symm.trans reservation
    have hp : c.profile ≠ none := by simp [profile]
    have he : d.epoch = c.epoch := dispatched.trans epoch
    rcases source with ⟨hi, ho⟩ | ⟨hi, -⟩
    · simp only [hi, if_true]
      exact (h.discharge hb).unreserve.launch hp rfl hb he fun _ => ⟨(h.obliged ho).1, rfl⟩
    · simp only [hi, Bool.false_eq_true, if_false]
      exact h.clear.unreserve.launch hp rfl hb he fun hs => by cases (safe.trans hi).symm.trans hs
  | @withdrawn _ i j _ reservation same =>
    split_ifs
    · exact h.unreserve
    · exact h.clear.unreserve
  | cleared state safe settled obligation =>
    have hl := h.unarmed (by rw [state]; rfl)
    exact { h with
      unprofiled := fun hp => by cases state.symm.trans (h.unprofiled hp).1
      leased := by show c.lease.isSome = _; rw [hl]; rfl
      unlatched := fun _ => rfl
      obliged := fun ho => by cases obligation.symm.trans ho
      blocked := fun hb => by cases (h.blocked hb).unconfirmed.symm.trans safe }
  | completed flight completes known settled =>
    cases settled with
    | old => exact h.settle
    | current safe epoch => exact h.confirm flight safe epoch

end Permission

namespace OutputAuthority
open History

variable {s : OutputAuthority} {call : AuthorityCall} {d : Dispatch}

theorem wf_new (instanceId : ℕ) (actuator : ActuatorId) (limits : ValueSpec) (unit : EngineeringUnit) :
    (new instanceId actuator limits unit).permission.Wf where
  profile := fun p hp => by cases hp
  unprofiled := fun _ => ⟨rfl, rfl, rfl⟩
  leased := rfl
  current := fun l hl => by cases hl
  unlatched := fun _ => rfl
  queued := fun q hq => by cases hq
  range := fun q p hq => by cases hq
  exclusive := fun hf => by cases hf
  obliged := fun ho => by cases ho
  confirmed := fun hs => by cases hs
  flight := fun d hd => by cases hd
  blocked := fun hb => by cases hb

/-- Only an authority with a bound profile is ever asked to revoke. -/
theorem Revokes.profiled (hw : s.permission.Wf) (h : s.Revokes call) : s.permission.profile ≠ none := by
  intro hp
  obtain ⟨hs, hf, -⟩ := hw.unprofiled hp
  have hreports : ∀ d, ¬ s.Reports call d := fun d hr => by
    rcases hr with ⟨hd, -⟩ | ⟨_, hc, -⟩
    · cases hf.symm.trans hd
    · cases hf.symm.trans hc.1
  have hprofile : ¬ s.snapshot.profile.isSome = true := by
    rw [show s.snapshot.profile = none from hp]; simp
  obtain ⟨op, now⟩ := call
  cases op with
  | command c =>
    cases c with
    | requestSafe => exact hprofile h
    | trip => exact hprofile h
    | release lease => exact hw.holds ((s.checkLease_ok _ _).1 h) hp
    | _ => exact hreports _ h.choose_spec
  | tick =>
    obtain ⟨lease, hl, -⟩ := h
    have hl' := hw.unarmed (by rw [hs]; rfl)
    cases hl'.symm.trans hl
  | _ => exact hreports _ h.choose_spec

theorem wf_step (s : OutputAuthority) (call : AuthorityCall) (h : s.permission.Wf) :
    (s.step call).permission.Wf := by
  by_cases hr : s.Revokes call
  · exact h.revocation (hr.profiled h) (step_revocation hr)
  · exact h.change (step_change hr)

/-- Every authority reached from `new` by any calls at any times keeps the invariant. -/
theorem wf_run (instanceId : ℕ) (actuator : ActuatorId) (limits : ValueSpec) (unit : EngineeringUnit)
    (calls : List AuthorityCall) : (run (new instanceId actuator limits unit) calls).permission.Wf :=
  run_stable wf_step (wf_new instanceId actuator limits unit) calls

theorem blocked_step (s : OutputAuthority) (call : AuthorityCall) (h : s.permission.Blocked) :
    (s.step call).permission.Blocked := by
  by_cases hr : s.Revokes call
  · exact h.revocation (step_revocation hr)
  · exact h.change (step_change hr)

end OutputAuthority
end LabRuntime
