import LabRuntime.Output.Authority

/-! What an authority permits, without the delivery evidence it reports: the fields every
operation decides by, and the changes an operation can make to them. `Change` says this once;
the invariant and the history arguments are case analyses over it. -/

namespace LabRuntime

structure Permission where
  actuator : ActuatorId
  instanceId : ℕ
  limits : ValueSpec
  unit : EngineeringUnit
  profile : Option SafeProfile
  state : OutputState
  lease : Option OutputLease
  epoch : ℕ
  faultLatched : Bool
  safeConfirmed : Bool
  pendingFlag : Bool
  inFlight : Option Dispatch
  pending : Option Pending
  reserved : Option OutputIntent
  obligation : Bool
  blocked : Bool
  nextDispatch : ℕ

def OutputAuthority.permission (s : OutputAuthority) : Permission where
  actuator := s.actuator
  instanceId := s.instanceId
  limits := s.limits
  unit := s.unit
  profile := s.snapshot.profile
  state := s.snapshot.state
  lease := s.snapshot.lease
  epoch := s.snapshot.epoch
  faultLatched := s.snapshot.faultLatched
  safeConfirmed := s.snapshot.safeConfirmed
  pendingFlag := s.snapshot.pending
  inFlight := s.snapshot.inFlight
  pending := s.pending
  reserved := s.transportReserved
  obligation := s.safeObligationPending
  blocked := s.ambiguousSafeResendBlocked
  nextDispatch := s.nextDispatch

namespace Permission

/-- A lease passes the authority's check at a time. -/
structure Holds (c : Permission) (l : OutputLease) (now : ℕ) : Prop where
  fresh : now < l.expires
  stored : c.lease = some l
  actuator : l.actuator = c.actuator
  instanceId : l.instanceId = c.instanceId
  epoch : l.epoch = c.epoch
  armed : c.state.armed = true

/-! ### The changes -/

def clear (c : Permission) : Permission := { c with pending := none, pendingFlag := false }

/-- The epoch counter is exhausted: nothing is revoked by a new epoch, the authority latches. -/
def exhaust (c : Permission) : Permission :=
  clear { c with lease := none, faultLatched := true, safeConfirmed := false, state := .faultLatched }

/-- A revocation: a new epoch, or at exhaustion no more than the latch. -/
def revoke (c : Permission) (fault : Bool) : Permission :=
  if c.epoch < u64Max then
    clear { c with
      epoch := c.epoch + 1, lease := none, faultLatched := c.faultLatched || fault,
      safeConfirmed := false, state := if c.blocked then .faultLatched else .safePending,
      obligation := true, reserved := none }
  else c.exhaust

theorem revoke_of_lt {c : Permission} {fault : Bool} (h : c.epoch < u64Max) :
    c.revoke fault = clear { c with
      epoch := c.epoch + 1, lease := none, faultLatched := c.faultLatched || fault,
      safeConfirmed := false, state := if c.blocked then .faultLatched else .safePending,
      obligation := true, reserved := none } := if_pos h

theorem revoke_of_not_lt {c : Permission} {fault : Bool} (h : ¬ c.epoch < u64Max) :
    c.revoke fault = c.exhaust := if_neg h

@[simp] theorem revoke_profile {c : Permission} {fault : Bool} : (c.revoke fault).profile = c.profile := by
  unfold revoke; split_ifs <;> rfl

/-- The send `d` is uncertain: authority is revoked, and a safe write is never repeated. -/
def distrust (c : Permission) (d : Dispatch) : Permission :=
  if d.safe = true ∧ c.epoch < u64Max then
    { c.revoke true with blocked := true, state := .faultLatched }
  else c.revoke true

def settle (c : Permission) : Permission := { c with inFlight := none }

/-- A current safe dispatch was completed, with sufficient evidence or not. -/
def confirm (c : Permission) (sufficient : Bool) : Permission :=
  { c with
    safeConfirmed := sufficient, faultLatched := c.faultLatched || !sufficient,
    state := if c.faultLatched || !sufficient then .faultLatched else .disarmed }

def launch (c : Permission) (d : Dispatch) : Permission :=
  { c with nextDispatch := d.id.sequence + 1, safeConfirmed := false, inFlight := some d }

def bindProfile (c : Permission) (p : SafeProfile) : Permission :=
  clear { c with epoch := c.epoch + 1, profile := some p, state := .unverified, safeConfirmed := false }

def arm (c : Permission) (l : OutputLease) : Permission :=
  { c with epoch := l.epoch, lease := some l, safeConfirmed := false, state := l.owner.armedState }

end Permission

/-! ### Evidence never changes a permission -/

namespace OutputAuthority

variable (s : OutputAuthority)

@[simp] theorem permission_failManual : s.failManualBeforeSend.permission = s.permission := by
  unfold failManualBeforeSend; split
  · split_ifs <;> rfl
  · rfl

@[simp] theorem permission_manualSendStarted (d : Dispatch) :
    (s.manualSendStarted d).permission = s.permission := by
  unfold manualSendStarted; split
  · split_ifs <;> rfl
  · rfl

@[simp] theorem permission_captureManual (id : DispatchId) (terminal : Bool) :
    (s.captureManualDelivery id terminal).permission = s.permission := by
  unfold captureManualDelivery; split
  · split_ifs <;> rfl
  · rfl

@[simp] theorem permission_clearPending : s.clearPending.permission = s.permission.clear := rfl

theorem checkLease_ok (l : OutputLease) (now : ℕ) :
    s.checkLease l now = .ok () ↔ s.permission.Holds l now := by
  unfold checkLease
  split_ifs with h1 h2
  · exact iff_of_false (by simp) fun h => absurd h.fresh (by omega)
  · refine iff_of_false (by simp) fun h => ?_
    rcases h2 with h2 | h2 | h2 | h2 | h2
    · exact h2 h.stored
    · exact h2 h.actuator
    · exact h2 h.instanceId
    · exact h2 h.epoch
    · exact absurd h.armed (by simpa [permission] using h2)
  · simp only [not_or, not_not, Bool.not_eq_false] at h2
    exact iff_of_true rfl ⟨by omega, h2.1, h2.2.1, h2.2.2.1, h2.2.2.2.1, h2.2.2.2.2⟩

theorem bumpEpoch_of_lt (h : s.snapshot.epoch < u64Max) :
    s.bumpEpoch = (.ok (), { s with snapshot := { s.snapshot with epoch := s.snapshot.epoch + 1 } }) := by
  have he : checkedAdd s.snapshot.epoch 1 = some (s.snapshot.epoch + 1) :=
    checkedAdd_eq_some.2 ⟨rfl, h⟩
  simp [bumpEpoch, he]

theorem bumpEpoch_of_not_lt (h : ¬ s.snapshot.epoch < u64Max) :
    s.bumpEpoch.1 = .error (.output .counterExhausted) ∧ s.bumpEpoch.2.permission = s.permission.exhaust := by
  have he : checkedAdd s.snapshot.epoch 1 = none := checkedAdd_eq_none.2 (by omega)
  unfold bumpEpoch
  rw [he]
  exact ⟨rfl, rfl⟩

@[simp] theorem epoch_failManual : s.failManualBeforeSend.snapshot.epoch = s.snapshot.epoch :=
  congrArg Permission.epoch s.permission_failManual

/-- What a safe request leaves, with the error of an exhausted epoch included. -/
theorem requestSafe_permission (fault : Bool) :
    (s.requestSafe fault).2.permission = s.permission.revoke fault := by
  unfold requestSafe Permission.revoke
  by_cases h : s.snapshot.epoch < u64Max
  · rw [bumpEpoch_of_lt _ (by simpa using h), if_pos (show s.permission.epoch < u64Max from h),
      ← s.permission_failManual]
    rfl
  · obtain ⟨h1, h2⟩ := s.failManualBeforeSend.bumpEpoch_of_not_lt (by simpa using h)
    rw [if_neg (show ¬ s.permission.epoch < u64Max from h), ← s.permission_failManual, ← h2]
    generalize s.failManualBeforeSend.bumpEpoch = b at h1
    obtain ⟨r, t⟩ := b
    subst h1
    rfl

theorem requestSafe_result (fault : Bool) :
    (s.requestSafe fault).1 =
      if s.snapshot.epoch < u64Max then .ok () else .error (.output .counterExhausted) := by
  unfold requestSafe
  split_ifs with h
  · rw [bumpEpoch_of_lt _ (by simpa using h)]
  · obtain ⟨h1, -⟩ := s.failManualBeforeSend.bumpEpoch_of_not_lt (by simpa using h)
    generalize s.failManualBeforeSend.bumpEpoch = b at h1
    obtain ⟨r, t⟩ := b
    subst h1
    rfl

end OutputAuthority
end LabRuntime
