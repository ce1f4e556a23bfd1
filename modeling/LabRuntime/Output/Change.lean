import LabRuntime.Output.Run

/-! Everything one call can do to a permission. `Change` and `Revocation` list the changes with
their guards, and `step_permission` says that every call makes one of them. -/

namespace LabRuntime

namespace Permission

/-- A completion that does not leave the dispatch uncertain: a current safe one is judged by its
evidence, anything else is only settled. -/
inductive Settled (c : Permission) (d : Dispatch) (outcome : DispatchOutcome) : Permission → Prop
  | old (h : d.safe = true → d.epoch = c.epoch → c.profile = none) : Settled c d outcome c.settle
  | current {sufficient} (safe : d.safe = true) (epoch : d.epoch = c.epoch)
    (evidence : sufficient = true → outcome = .readbackVerified ∨
      (outcome = .acknowledged ∧ ∃ p, c.profile = some p ∧ p.requiredEvidence = .acknowledgement)) :
    Settled c d outcome (c.settle.confirm sufficient)

/-- Every change of a permission that is not a revocation, with the call and its guards. -/
inductive Change (c : Permission) (now : ℕ) : AuthorityOp → Except Error AuthorityReply → Permission → Prop
  | rejected {op e} : Change c now op (.error e) c
  | observed {op} (silent : op ≠ .command .beginDispatch ∧ ∀ i, op ≠ .beginTransport i) : Change c now op (.ok .done) c
  | ticked : Change c now (.command .tick) (.ok (.result .updated)) c
  | dropped {op e} : Change c now op (.error e) c.clear
  | latched {op e} (idle : c.inFlight = none ∨ (c.state = .disarmed ∧ c.safeConfirmed = true))
    (exhausted : ¬ c.epoch < u64Max) :
    Change c now op (.error e) c.exhaust
  | bound {p} (state : c.state = .unverified ∨ c.state = .disarmed) (settled : c.inFlight = none)
    (valid : p.isValid = true) (low : c.limits.validate (.float p.min) = .ok ())
    (high : c.limits.validate (.float p.max) = .ok ()) (counter : c.epoch < u64Max) :
    Change c now (.command (.bindProfile p)) (.ok (.result .updated)) (c.bindProfile p)
  | armed {owner lifetime l} (state : c.state = .disarmed) (safe : c.safeConfirmed = true)
    (counter : c.epoch < u64Max) (actuator : l.actuator = c.actuator)
    (instanceId : l.instanceId = c.instanceId) (owned : l.owner = owner)
    (epoch : l.epoch = c.epoch + 1) (expires : l.expires = now + lifetime) :
    Change c now (.command (.acquire owner lifetime)) (.ok (.result (.lease l))) (c.arm l)
  | renewed {op r l e} (renews : ∃ lifetime, op = .renewNative l lifetime ∨ op = .command (.renewManual l lifetime))
    (holds : c.Holds l now) (queue : c.pending = none) (reservation : c.reserved = none)
    (settled : c.inFlight = none) (later : l.expires < e) :
    Change c now op r { c with lease := some { l with expires := e } }
  | queued {proposal : OutputProposal} {v p} (holds : c.Holds proposal.lease now)
    (value : proposal.value = .float v)
    (profile : c.profile = some p) (range : (ValueSpec.float p.min p.max).validate (.float v) = .ok ())
    (slot : c.pending = none) :
    Change c now (.command (.propose proposal)) (.ok (.result .queued))
      { c with
        pending := some { lease := proposal.lease, value := v, expires := min (now + proposal.ttl) proposal.lease.expires }
        pendingFlag := true }
  | begun {d} (settled : c.inFlight = none) (reservation : c.reserved = none)
    (id : d.id = { instanceId := c.instanceId, sequence := c.nextDispatch }) (epoch : d.epoch = c.epoch)
    (source : (c.obligation = true ∧ c.blocked = false ∧ d.safe = true ∧
        ∃ p, c.profile = some p ∧ d.value = p.safeValue) ∨
      (c.obligation = false ∧ d.safe = false ∧ ∃ p, c.pending = some p ∧ c.Holds p.lease now ∧
        now < p.expires ∧ d.value = p.value)) :
    Change c now (.command .beginDispatch) (.ok (.result (.dispatched d)))
      ({ c.clear with obligation := false }.launch d)
  | reserved {queueDeadline attemptId generation revision} {i : OutputIntent} (settled : c.inFlight = none)
    (reservation : c.reserved = none) (epoch : i.epoch = c.epoch)
    (source : (c.obligation = true ∧ c.blocked = false ∧ i.safe = true ∧ i.lease = none) ∨
      (c.obligation = false ∧ i.safe = false ∧ ∃ p, c.pending = some p ∧ i.lease = some p.lease ∧
        c.Holds p.lease now ∧ i.expires ≤ p.expires ∧ i.value = p.value)) :
    Change c now (.reserveTransport queueDeadline attemptId generation revision) (.ok (.intent i))
      { c with reserved := some i }
  | sent {i j : OutputIntent} {d p} (settled : c.inFlight = none) (reservation : c.reserved = some j) (same : (j == i) = true)
    (epoch : i.epoch = c.epoch) (fresh : now < i.expires)
    (id : d.id = { instanceId := c.instanceId, sequence := c.nextDispatch }) (dispatched : d.epoch = i.epoch)
    (value : d.value = i.value) (safe : d.safe = i.safe)
    (limits : c.limits.validate (.float i.value) = .ok ()) (profile : c.profile = some p)
    (range : (ValueSpec.float p.min p.max).validate (.float i.value) = .ok ())
    (source : (i.safe = true ∧ c.obligation = true) ∨
      (i.safe = false ∧ ∃ l, i.lease = some l ∧ c.Holds l now)) :
    Change c now (.beginTransport i) (.ok (.dispatched d.id))
      ({ (if i.safe then { c with obligation := false } else c.clear) with reserved := none }.launch d)
  | withdrawn {op} {i j : OutputIntent} (withdraws : op = .abortTransport i ∨ op = .failTransportBeforeSend i)
    (reservation : c.reserved = some j) (same : (j == i) = true) :
    Change c now op (.ok .done)
      (if i.safe then { c with reserved := none } else { c.clear with reserved := none })
  | cleared (state : c.state = .faultLatched) (safe : c.safeConfirmed = true) (settled : c.inFlight = none)
    (obligation : c.obligation = false) :
    Change c now (.command .acknowledgeFault) (.ok (.result .updated))
      { c with faultLatched := false, state := .disarmed }
  | completed {op r d outcome c'} (flight : c.inFlight = some d)
    (completes : OutputAuthority.completes op d = some outcome) (known : outcome.unsettled = false)
    (settled : c.Settled d outcome c') : Change c now op r c'

/-- What a revocation leaves: a plain one, one for an uncertain send, one that also settles it. -/
inductive Revocation (c : Permission) : AuthorityOp → Permission → Prop
  | requested {op} (fault : Bool) (quiet : ∀ d, OutputAuthority.completes op d = none) :
    Revocation c op (c.revoke fault)
  | uncertain {d} (flight : c.inFlight = some d) :
    Revocation c (.transportUncertain d.id) (c.distrust d)
  | failed {op d outcome} (flight : c.inFlight = some d)
    (completes : OutputAuthority.completes op d = some outcome) (unsettled : outcome.unsettled = true) :
    Revocation c op (c.settle.distrust d)

end Permission

namespace OutputAuthority
open Permission (Change Revocation)
variable (s : OutputAuthority)

theorem profile_ok {s : OutputAuthority} {p : SafeProfile} :
    s.profile = .ok p ↔ s.snapshot.profile = some p := by
  unfold OutputAuthority.profile
  cases s.snapshot.profile <;> simp

theorem profile_error {s : OutputAuthority} {e : Error} (h : s.profile = .error e) :
    s.snapshot.profile = none := by
  unfold OutputAuthority.profile at h
  cases hp : s.snapshot.profile with
  | none => rfl
  | some p => rw [hp] at h; cases h

theorem permission_startDispatch (d : Dispatch) (now : ℕ) :
    (s.startDispatch d (d.id.sequence + 1) now).permission = s.permission.launch d := by
  unfold startDispatch
  rw [permission_manualSendStarted]
  rfl

theorem bind_change (p : SafeProfile) (now : ℕ) :
    Change s.permission now (.command (.bindProfile p)) ((s.bind p).1.map .result)
      (s.bind p).2.permission := by
  unfold OutputAuthority.bind
  split_ifs with h
  · exact .rejected
  simp only [not_or, Option.not_isSome_iff_eq_none, not_and_or, not_not] at h
  obtain ⟨hstate, hf⟩ := h
  cases hv : p.validate with
  | error e => exact .rejected
  | ok u =>
    cases hl : s.limits.validate (.float p.min) with
    | error e => exact .rejected
    | ok u =>
      cases hh : s.limits.validate (.float p.max) with
      | error e => exact .rejected
      | ok u =>
        have hvalid : p.isValid = true := by
          unfold SafeProfile.validate at hv
          split_ifs at hv with h
          exact h
        by_cases he : s.snapshot.epoch < u64Max
        · rw [bumpEpoch_of_lt _ he]
          exact .bound hstate hf hvalid hl hh he
        · obtain ⟨h1, h2⟩ := s.bumpEpoch_of_not_lt he
          generalize s.bumpEpoch = b at h1 h2
          obtain ⟨r, t⟩ := b
          subst h1
          show Change _ _ _ _ t.permission
          rw [show t.permission = _ from h2]
          exact .latched (.inl hf) he

theorem propose_change (q : OutputProposal) (now : ℕ) :
    Change s.permission now (.command (.propose q)) ((s.propose q now).1.map .result)
      (s.propose q now).2.permission := by
  unfold OutputAuthority.propose
  cases hc : s.checkLease q.lease now with
  | error e => exact .rejected
  | ok u =>
    dsimp only
    by_cases hu : (q.unit != s.unit) = true
    · rw [if_pos hu]; exact .rejected
    rw [if_neg hu]
    cases hp : s.profile with
    | error e => exact .rejected
    | ok p =>
      dsimp only
      cases hr : (ValueSpec.float p.min p.max).validate q.value with
      | error e => exact .rejected
      | ok u =>
        dsimp only
        by_cases ht : q.ttl = 0 ∨ q.ttl > p.maxProposalTtl
        · rw [if_pos ht]; exact .rejected
        rw [if_neg ht]
        cases hd : durationAdd now q.ttl with
        | none => exact .rejected
        | some deadline =>
          dsimp only
          by_cases hs : s.pending.isSome
          · rw [if_pos hs]; exact .rejected
          rw [if_neg hs]
          obtain ⟨rfl, -⟩ := durationAdd_eq_some.1 hd
          cases hv : q.value with
          | float v =>
            exact .queued ((s.checkLease_ok _ _).1 hc) hv (profile_ok.1 hp) (hv ▸ hr)
              (Option.not_isSome_iff_eq_none.1 hs)
          | _ => exact .rejected

theorem begin_change (now : ℕ) :
    Change s.permission now (.command .beginDispatch) ((s.begin now).1.map .result)
      (s.begin now).2.permission := by
  unfold OutputAuthority.begin
  split_ifs with hb ho hr
  · exact .rejected
  · exact .rejected
  · simp only [not_or, Option.not_isSome_iff_eq_none] at hb
    cases hp : s.profile with
    | error e => exact .rejected
    | ok p =>
      cases hn : checkedAdd s.nextDispatch 1 with
      | none => exact .rejected
      | some n =>
        obtain ⟨rfl, -⟩ := checkedAdd_eq_some.1 hn
        dsimp only
        rw [permission_startDispatch]
        exact .begun hb.1 hb.2 rfl rfl (.inl ⟨ho, Bool.eq_false_of_not_eq_true hr, rfl, p, profile_ok.1 hp, rfl⟩)
  · simp only [not_or, Option.not_isSome_iff_eq_none] at hb
    cases hq : s.pending with
    | none => exact .rejected
    | some p =>
      dsimp only
      cases hc : s.checkLease p.lease now with
      | error e => exact .dropped
      | ok u =>
        dsimp only
        split_ifs with ht
        · exact .dropped
        cases hn : checkedAdd s.nextDispatch 1 with
        | none => exact .rejected
        | some n =>
          obtain ⟨rfl, -⟩ := checkedAdd_eq_some.1 hn
          dsimp only
          rw [permission_startDispatch]
          exact .begun hb.1 hb.2 rfl rfl (.inr ⟨Bool.eq_false_of_not_eq_true ho, rfl, p, hq,
            (s.checkLease_ok _ _).1 hc, by omega, rfl⟩)

theorem acquire_change (owner : OutputOwner) (lifetime now : ℕ) :
    Change s.permission now (.command (.acquire owner lifetime))
      ((s.acquire owner lifetime now).1.map .result) (s.acquire owner lifetime now).2.permission := by
  unfold OutputAuthority.acquire
  by_cases hs : s.snapshot.state ≠ .disarmed ∨ s.snapshot.safeConfirmed = false
  · rw [if_pos hs]; exact .rejected
  rw [if_neg hs]
  simp only [not_or, not_not, Bool.not_eq_false] at hs
  cases hp : s.profile with
  | error e => exact .rejected
  | ok p =>
    dsimp only
    by_cases hl : lifetime = 0 ∨ lifetime > p.maxLease
    · rw [if_pos hl]; exact .rejected
    rw [if_neg hl]
    cases hd : durationAdd now lifetime with
    | none => exact .rejected
    | some expires =>
      dsimp only
      by_cases he : s.snapshot.epoch < u64Max
      · rw [bumpEpoch_of_lt _ he]
        exact .armed hs.1 hs.2 he rfl rfl rfl rfl (durationAdd_eq_some.1 hd).1
      · obtain ⟨h1, h2⟩ := s.bumpEpoch_of_not_lt he
        generalize s.bumpEpoch = b at h1 h2
        obtain ⟨r, t⟩ := b
        subst h1
        show Change _ _ _ _ t.permission
        rw [show t.permission = _ from h2]
        exact .latched (.inr hs) he

theorem renew_change {op : AuthorityOp} (f : OutputLease → AuthorityReply) (l : OutputLease)
    (lifetime now : ℕ)
    (hop : ∃ lifetime, op = .renewNative l lifetime ∨ op = .command (.renewManual l lifetime)) :
    Change s.permission now op ((s.renew l lifetime now).1.map f) (s.renew l lifetime now).2.permission := by
  unfold renew
  cases hc : s.checkLease l now with
  | error e => exact .rejected
  | ok u =>
    dsimp only
    by_cases ha : s.snapshot.state.armed = false ∨ s.snapshot.faultLatched = true ∨
        s.safeObligationPending = true
    · rw [if_pos ha]; exact .rejected
    rw [if_neg ha]
    by_cases hb : s.pending.isSome ∨ s.transportReserved.isSome ∨ s.snapshot.inFlight.isSome
    · rw [if_pos hb]; exact .rejected
    rw [if_neg hb]
    simp only [not_or, Option.not_isSome_iff_eq_none] at hb
    cases hp : s.profile with
    | error e => exact .rejected
    | ok p =>
      dsimp only
      by_cases hl : lifetime = 0 ∨ lifetime > p.maxLease
      · rw [if_pos hl]; exact .rejected
      rw [if_neg hl]
      cases hd : durationAdd now lifetime with
      | none => exact .rejected
      | some expires =>
        dsimp only
        by_cases hx : expires ≤ l.expires
        · rw [if_pos hx]; exact .rejected
        rw [if_neg hx]
        exact .renewed hop ((s.checkLease_ok _ _).1 hc) hb.1 hb.2.1 hb.2.2 (by omega)

theorem reserve_change (now queueDeadline : ℕ) (attemptId : Option ℕ) (generation revision : ℕ) :
    Change s.permission now (.reserveTransport queueDeadline attemptId generation revision)
      ((s.reserveTransport now queueDeadline attemptId generation revision).1.map .intent)
      (s.reserveTransport now queueDeadline attemptId generation revision).2.permission := by
  unfold reserveTransport
  by_cases hb : s.snapshot.inFlight.isSome ∨ s.transportReserved.isSome
  · rw [if_pos hb]; exact .rejected
  rw [if_neg hb]
  simp only [not_or, Option.not_isSome_iff_eq_none] at hb
  by_cases hd : now ≥ queueDeadline ∨ generation = 0 ∨ revision = 0
  · rw [if_pos hd]; exact .rejected
  rw [if_neg hd]
  by_cases ho : s.safeObligationPending = true
  · rw [if_pos ho]
    by_cases hr : s.ambiguousSafeResendBlocked = true
    · rw [if_pos hr]; exact .rejected
    rw [if_neg hr]
    cases hp : s.profile with
    | error e => exact .rejected
    | ok p =>
      exact .reserved hb.1 hb.2 rfl (.inl ⟨ho, Bool.eq_false_of_not_eq_true hr, rfl, rfl⟩)
  · rw [if_neg ho]
    cases hq : s.pending with
    | none => exact .rejected
    | some p =>
      dsimp only
      cases hc : s.checkLease p.lease now with
      | error e => exact .rejected
      | ok u =>
        dsimp only
        by_cases ht : now ≥ p.expires
        · rw [if_pos ht]; exact .dropped
        rw [if_neg ht]
        rw [← hq]
        refine .reserved hb.1 hb.2 rfl (.inr ?_)
        exact ⟨Bool.eq_false_of_not_eq_true ho, rfl, p, hq, rfl, (s.checkLease_ok _ _).1 hc,
          Nat.min_le_left .., rfl⟩

/-- What the final validation of a queued intent has checked. -/
theorem validateTransport_ok {s : OutputAuthority} {i : OutputIntent} {now : ℕ}
    (h : s.validateTransport i now = .ok ()) :
    ∃ j p, s.transportReserved = some j ∧ (j == i) = true ∧ i.epoch = s.snapshot.epoch ∧
      now < i.expires ∧ s.snapshot.inFlight = none ∧ s.limits.validate (.float i.value) = .ok () ∧
      s.snapshot.profile = some p ∧ (ValueSpec.float p.min p.max).validate (.float i.value) = .ok () ∧
      ((i.safe = true ∧ s.safeObligationPending = true) ∨
        (i.safe = false ∧ ∃ l, i.lease = some l ∧ s.permission.Holds l now)) := by
  unfold validateTransport at h
  by_cases hg : (s.transportReserved != some i) = true ∨ i.actuator ≠ s.actuator ∨
      i.instanceId ≠ s.instanceId ∨ i.epoch ≠ s.snapshot.epoch ∨ (i.unit != s.unit) = true ∨
      now ≥ i.expires ∨ s.snapshot.inFlight.isSome = true
  · rw [if_pos hg] at h; cases h
  rw [if_neg hg] at h
  simp only [not_or, not_not, Option.not_isSome_iff_eq_none] at hg
  obtain ⟨hr, -, -, he, -, hx, hf⟩ := hg
  obtain ⟨j, hj, hji⟩ : ∃ j, s.transportReserved = some j ∧ (j == i) = true := by
    cases hj : s.transportReserved with
    | none => rw [hj] at hr; exact absurd rfl hr
    | some j => rw [hj] at hr; exact ⟨j, rfl, by simpa [bne] using hr⟩
  cases hl : s.limits.validate (.float i.value) with
  | error e => rw [hl] at h; cases h
  | ok u =>
    cases hp : s.profile with
    | error e => rw [hl, hp] at h; cases h
    | ok p =>
      cases hv : (ValueSpec.float p.min p.max).validate (.float i.value) with
      | error e => rw [hl, hp] at h; dsimp only at h; rw [hv] at h; cases h
      | ok u =>
        rw [hl, hp] at h
        dsimp only at h
        rw [hv] at h
        refine ⟨j, p, hj, hji, he, by omega, hf, rfl, profile_ok.1 hp, hv, ?_⟩
        cases hs : i.safe with
        | true =>
          simp only [hs, if_true] at h
          by_cases ho : s.safeObligationPending = false ∨ i.lease.isSome = true
          · rw [if_pos ho] at h; cases h
          · simp only [not_or, Bool.not_eq_false] at ho
            exact .inl ⟨rfl, ho.1⟩
        | false =>
          simp only [hs, Bool.false_eq_true, if_false] at h
          cases hl : i.lease with
          | none => rw [hl] at h; cases h
          | some l => rw [hl] at h; exact .inr ⟨rfl, l, rfl, (s.checkLease_ok _ _).1 h⟩

theorem beginTransport_change (i : OutputIntent) (now : ℕ) :
    Change s.permission now (.beginTransport i) ((s.beginTransport i now).1.map .dispatched)
      (s.beginTransport i now).2.permission := by
  unfold beginTransport
  cases hv : s.validateTransport i now with
  | error e => exact .rejected
  | ok u =>
    cases hn : checkedAdd s.nextDispatch 1 with
    | none => exact .rejected
    | some n =>
      obtain ⟨rfl, -⟩ := checkedAdd_eq_some.1 hn
      obtain ⟨j, p, hj, hji, he, hx, hf, hl, hp, hr, hs⟩ := validateTransport_ok hv
      dsimp only
      rw [permission_startDispatch]
      have hsent := Change.sent (c := s.permission)
        (d := { id := { instanceId := s.instanceId, sequence := s.nextDispatch }, value := i.value,
                safe := i.safe, epoch := i.epoch }) hf hj hji he hx rfl rfl rfl rfl hl hp hr hs
      cases h : i.safe <;> simp only [h] at hsent ⊢ <;> exact hsent

theorem permission_abort (i : OutputIntent) :
    (s.abortTransport i).permission = s.permission ∨
      ∃ j, s.transportReserved = some j ∧ (j == i) = true ∧ (s.abortTransport i).permission =
        if i.safe then { s.permission with reserved := none }
        else { s.permission.clear with reserved := none } := by
  unfold abortTransport
  by_cases h : (s.transportReserved == some i) = true
  · right
    cases hj : s.transportReserved with
    | none => rw [hj] at h; cases h
    | some j =>
      rw [hj] at h
      refine ⟨j, rfl, by simpa using h, ?_⟩
      rw [if_pos h]
      cases i.safe
      · exact permission_failManual _
      · rfl
  · left
    rw [if_neg h]

theorem abort_change (i : OutputIntent) (now : ℕ) :
    Change s.permission now (.abortTransport i) (.ok .done) (s.abortTransport i).permission := by
  rcases s.permission_abort i with h | ⟨j, hj, hji, h⟩
  · rw [h]; exact .observed (by simp)
  · rw [h]; exact .withdrawn (.inl rfl) hj hji

theorem failTransport_change (i : OutputIntent) (now : ℕ) :
    Change s.permission now (.failTransportBeforeSend i) (.ok .done)
      (s.failTransportBeforeSend i).permission := by
  unfold failTransportBeforeSend
  split_ifs with hr
  · show Change _ _ _ _ (s.abortTransport i).permission
    rcases s.permission_abort i with h | ⟨j, hj, hji, h⟩
    · rw [h]; exact .observed (by simp)
    · rw [h]; exact .withdrawn (.inr rfl) hj hji
  · exact .observed (by simp)

theorem complete_settled {d : Dispatch} {outcome : DispatchOutcome} (now : ℕ)
    (hf : s.snapshot.inFlight = some d) (ho : outcome.unsettled = false) :
    s.permission.Settled d outcome (s.complete d.id outcome now).2.permission := by
  unfold complete
  rw [hf]
  simp only [ne_eq, not_true_eq_false, if_false, ho, Bool.false_eq_true]
  generalize ht : captureManualDelivery _ d.id true = t
  have hp : t.permission = s.permission.settle := by rw [← ht, permission_captureManual]; rfl
  have hprofile : t.snapshot.profile = s.snapshot.profile := congrArg Permission.profile hp
  have hepoch : t.snapshot.epoch = s.snapshot.epoch := congrArg Permission.epoch hp
  by_cases hs : d.safe = true ∧ d.epoch = t.snapshot.epoch
  · rw [if_pos hs]
    by_cases hr : outcome = .readbackVerified
    · rw [if_pos hr]
      show s.permission.Settled d outcome (t.permission.confirm true)
      rw [hp]
      exact .current hs.1 (hs.2.trans hepoch) fun _ => .inl hr
    rw [if_neg hr]
    have hack : outcome = .acknowledged := by cases outcome <;> simp_all [DispatchOutcome.unsettled]
    cases hq : t.profile with
    | error e =>
      show s.permission.Settled d outcome t.permission
      rw [hp]
      exact .old fun _ _ => hprofile.symm.trans (profile_error hq)
    | ok p =>
      have hp' : s.snapshot.profile = some p := hprofile.symm.trans (profile_ok.1 hq)
      show s.permission.Settled d outcome (t.permission.confirm (p.requiredEvidence == .acknowledgement))
      rw [hp]
      exact .current hs.1 (hs.2.trans hepoch) fun h => .inr ⟨hack, p, hp', by simpa using h⟩
  · rw [if_neg hs]
    show s.permission.Settled d outcome t.permission
    rw [hp]
    exact .old fun h1 h2 => absurd ⟨h1, h2.trans hepoch.symm⟩ hs

theorem requestSafe_ok {s t : OutputAuthority} {fault : Bool} {u : Unit}
    (h : s.requestSafe fault = (.ok u, t)) :
    s.permission.epoch < u64Max ∧ t.permission = s.permission.revoke fault := by
  have h1 := s.requestSafe_result fault
  have h2 := s.requestSafe_permission fault
  rw [h] at h1 h2
  split_ifs at h1 with he
  exact ⟨he, h2⟩

theorem requestSafe_error {s t : OutputAuthority} {fault : Bool} {e : Error}
    (h : s.requestSafe fault = (.error e, t)) :
    ¬ s.permission.epoch < u64Max ∧ t.permission = s.permission.revoke fault := by
  have h1 := s.requestSafe_result fault
  have h2 := s.requestSafe_permission fault
  rw [h] at h1 h2
  split_ifs at h1 with he
  exact ⟨he, h2⟩

/-- A completion that leaves the dispatch uncertain. -/
theorem complete_unsettled {d : Dispatch} {outcome : DispatchOutcome} (now : ℕ)
    (hf : s.snapshot.inFlight = some d) (ho : outcome.unsettled = true) :
    (s.complete d.id outcome now).2.permission = s.permission.settle.distrust d := by
  unfold complete
  rw [hf]
  simp only [ne_eq, not_true_eq_false, if_false, ho, if_true]
  generalize ht : captureManualDelivery _ d.id true = t
  have hp : t.permission = s.permission.settle := by rw [← ht, permission_captureManual]; rfl
  rw [← hp]
  unfold Permission.distrust
  rcases hr : t.requestSafe true with ⟨e | u, t'⟩
  · obtain ⟨he, h⟩ := requestSafe_error hr
    rw [if_neg fun h => he h.2]
    exact h
  · obtain ⟨he, h⟩ := requestSafe_ok hr
    rw [← h]
    by_cases hs : d.safe = true
    · rw [if_pos ⟨hs, he⟩]; dsimp only; rw [if_pos hs]; rfl
    · rw [if_neg fun h => hs h.1]; dsimp only; rw [if_neg hs]

theorem transportUncertain_permission {d : Dispatch} (hf : s.snapshot.inFlight = some d) :
    (s.transportUncertain d.id).2.permission = s.permission.distrust d := by
  unfold transportUncertain Permission.distrust
  rw [hf]
  simp only [Option.filter_some, beq_self_eq_true, if_true]
  rcases hr : s.requestSafe true with ⟨e | u, t'⟩
  · obtain ⟨he, h⟩ := requestSafe_error hr
    rw [if_neg fun h => he h.2]
    exact h
  · obtain ⟨he, h⟩ := requestSafe_ok hr
    rw [← h]
    by_cases hs : d.safe = true
    · rw [if_pos ⟨hs, he⟩]; dsimp only; rw [if_pos hs]; rfl
    · rw [if_neg fun h => hs h.1]; dsimp only; rw [if_neg hs]

/-- A completion of no dispatch in flight changes nothing. -/
theorem complete_unknown {id : DispatchId} (outcome : DispatchOutcome) (now : ℕ)
    (h : ∀ d, s.snapshot.inFlight = some d → d.id ≠ id) :
    s.complete id outcome now = (.error (.output .unknownDispatch), s) := by
  unfold complete
  cases hf : s.snapshot.inFlight with
  | none => rfl
  | some d => dsimp only; rw [if_pos (h d hf)]

/-! ### Every call -/

variable {s} {call : AuthorityCall} {d : Dispatch} {outcome : DispatchOutcome}

@[simp] theorem reply_fst {α : Type} (f : α → AuthorityReply) (o : Outcome α) :
    (reply f o).1 = o.1.map f := rfl

@[simp] theorem reply_snd {α : Type} (f : α → AuthorityReply) (o : Outcome α) : (reply f o).2 = o.2 := rfl

/-- An exact readback is one `complete`, up to evidence fields. -/
theorem readbackExact_completes {reported : F64} (isMatch : Bool) (now : ℕ)
    (hf : s.snapshot.inFlight = some d) (hr : reported.isFinite = true) :
    ∃ t : OutputAuthority, t.permission = s.permission ∧
      (s.completeTransportReadbackExact d.id reported isMatch now).2.permission =
        (t.complete d.id (if isMatch then .readbackVerified else .failed) now).2.permission := by
  unfold completeTransportReadbackExact
  rw [hf]
  simp only [ne_eq, not_true_eq_false, hr, Bool.true_eq_false, or_self, if_false]
  cases isMatch
  · refine ⟨{ s with snapshot := { s.snapshot with
      reportedReadback := some { value := reported, observedAt := now }
      readbackFailure := some .mismatch } }, rfl, ?_⟩
    simp only [Bool.false_eq_true, if_false]
    split <;> rename_i h <;> rw [h]
  · refine ⟨{ s with snapshot := { s.snapshot with
      reportedReadback := some { value := reported, observedAt := now } } }, rfl, ?_⟩
    simp only [if_true]
    split <;> rename_i h <;> rw [h]

/-- Every way to complete the dispatch in flight is one `complete`, up to evidence fields. -/
theorem step_completes (h : s.Completes call d outcome) :
    ∃ t : OutputAuthority, t.permission = s.permission ∧
      (s.step call).permission = (t.complete d.id outcome call.now).2.permission := by
  obtain ⟨hf, hc⟩ := h
  obtain ⟨op, now⟩ := call
  unfold step apply
  cases op with
  | command c =>
    cases c with
    | complete id o =>
      simp only [completes] at hc
      split_ifs at hc with hid
      obtain rfl : o = outcome := by simpa using hc
      exact ⟨s, rfl, hid ▸ rfl⟩
    | _ => simp [completes] at hc
  | completeTransport id o =>
    simp only [completes] at hc
    split_ifs at hc with hid
    obtain rfl : o = outcome := by simpa using hc
    subst hid
    refine ⟨s, rfl, ?_⟩
    simp only [reply_snd, completeTransport]
    rcases s.complete d.id o now with ⟨e | u, t⟩ <;> rfl
  | completeTransportReadback id reported =>
    by_cases hid : d.id = id ∧ reported.isFinite = true
    · simp only [completes, if_pos hid] at hc
      obtain ⟨rfl, hr⟩ := hid
      obtain rfl := Option.some.inj hc
      simp only [reply_snd, completeTransportReadback, hf]
      exact readbackExact_completes (reported == d.value) now hf hr
    · simp [completes, hid] at hc
  | completeTransportReadbackExact id reported isMatch =>
    by_cases hid : d.id = id ∧ reported.isFinite = true
    · simp only [completes, if_pos hid] at hc
      obtain ⟨rfl, hr⟩ := hid
      obtain rfl := Option.some.inj hc
      exact readbackExact_completes isMatch now hf hr
    · simp [completes, hid] at hc
  | failTransportReadback id =>
    simp only [completes] at hc
    split_ifs at hc with hid
    obtain rfl : DispatchOutcome.ambiguous = outcome := by simpa using hc
    subst hid
    refine ⟨{ s with snapshot := { s.snapshot with readbackFailure := some .unavailable } }, rfl, ?_⟩
    simp only [reply_snd, failTransportReadback]
    split <;> rename_i h <;> rw [h]
  | _ => simp [completes] at hc

theorem step_settled (h : s.Completes call d outcome) (ho : outcome.unsettled = false) :
    s.permission.Settled d outcome (s.step call).permission := by
  obtain ⟨t, ht, hs⟩ := step_completes h
  rw [hs, ← ht]
  exact t.complete_settled call.now ((congrArg Permission.inFlight ht).trans h.1) ho

theorem step_failed (h : s.Completes call d outcome) (ho : outcome.unsettled = true) :
    (s.step call).permission = s.permission.settle.distrust d := by
  obtain ⟨t, ht, hs⟩ := step_completes h
  rw [hs, ← ht]
  exact t.complete_unsettled call.now ((congrArg Permission.inFlight ht).trans h.1) ho

theorem step_reports (h : s.Reports call d) :
    Revocation s.permission call.op (s.step call).permission := by
  rcases h with ⟨hf, hop⟩ | ⟨outcome, hc, ho⟩
  · have h : (s.step call).permission = (s.transportUncertain d.id).2.permission := by
      simp only [step, apply, hop, reply_snd]
    rw [h, transportUncertain_permission s hf, hop]
    exact .uncertain hf
  · rw [step_failed hc ho]
    exact .failed hc.1 hc.2 ho

/-- What a revoking call leaves. -/
theorem step_revocation (h : s.Revokes call) :
    Revocation s.permission call.op (s.step call).permission := by
  obtain ⟨op, now⟩ := call
  cases op with
  | command c =>
    cases c with
    | requestSafe =>
      obtain ⟨p, hp⟩ := Option.isSome_iff_exists.1 h
      simp only [step, apply, reply_snd, command, profile_ok.2 hp]
      rcases hr : s.requestSafe false with ⟨e | u, t⟩
      · exact (requestSafe_error hr).2 ▸ .requested false fun _ => rfl
      · exact (requestSafe_ok hr).2 ▸ .requested false fun _ => rfl
    | trip =>
      obtain ⟨p, hp⟩ := Option.isSome_iff_exists.1 h
      simp only [step, apply, reply_snd, command, profile_ok.2 hp]
      rcases hr : s.requestSafe true with ⟨e | u, t⟩
      · exact (requestSafe_error hr).2 ▸ .requested true fun _ => rfl
      · exact (requestSafe_ok hr).2 ▸ .requested true fun _ => rfl
    | release lease =>
      have hc : s.checkLease lease now = .ok () := h
      simp only [step, apply, reply_snd, command, hc]
      rcases hr : s.requestSafe false with ⟨e | u, t⟩
      · exact (requestSafe_error hr).2 ▸ .requested false fun _ => rfl
      · exact (requestSafe_ok hr).2 ▸ .requested false fun _ => rfl
    | _ => exact step_reports h.choose_spec
  | tick =>
    obtain ⟨lease, hl, hx⟩ := h
    simp only [step, apply, reply_snd, tick, hl, ge_iff_le, hx, if_true, requestSafe_permission]
    exact .requested false fun _ => rfl
  | _ => exact step_reports h.choose_spec

theorem checkLease_error {lease : OutputLease} {now : ℕ} (h : ¬ s.checkLease lease now = .ok ()) :
    ∃ e, s.checkLease lease now = .error e := by
  cases hc : s.checkLease lease now with
  | error e => exact ⟨e, rfl⟩
  | ok u => exact absurd hc h

theorem profile_none (h : ¬ s.snapshot.profile.isSome = true) :
    s.profile = .error (.output .invalidProfile) := by
  unfold OutputAuthority.profile
  rw [Option.not_isSome_iff_eq_none.1 h]

theorem Reports.revokes (h : s.Reports call d) : s.Revokes call := by
  obtain ⟨op, now⟩ := call
  have hno : (∀ id, op ≠ .transportUncertain id) → completes op d = none → False := by
    rintro h1 h2
    rcases h with ⟨-, hop⟩ | ⟨outcome, hc, -⟩
    · exact h1 _ hop
    · exact absurd (h2.symm.trans hc.2) (by simp)
  cases op with
  | command c =>
    cases c with
    | requestSafe => exact (hno (by simp) rfl).elim
    | trip => exact (hno (by simp) rfl).elim
    | release lease => exact (hno (by simp) rfl).elim
    | _ => exact ⟨d, h⟩
  | tick => exact (hno (by simp) rfl).elim
  | _ => exact ⟨d, h⟩

/-- An exact readback of no dispatch in flight changes nothing. -/
theorem readbackExact_unknown {id : DispatchId} {reported : F64} (isMatch : Bool) (now : ℕ)
    (h : ∀ d, s.snapshot.inFlight = some d → ¬ (d.id = id ∧ reported.isFinite = true)) :
    s.completeTransportReadbackExact id reported isMatch now = (.error (.output .unknownDispatch), s) := by
  unfold completeTransportReadbackExact
  cases hf : s.snapshot.inFlight with
  | none => rfl
  | some d =>
    dsimp only
    rw [if_pos]
    by_contra hn
    simp only [not_or, not_not, Bool.not_eq_false] at hn
    exact h d hf hn

/-- What a call that does not revoke can do. -/
theorem step_change (h : ¬ s.Revokes call) :
    Change s.permission call.now call.op (s.apply call).1 (s.step call).permission := by
  by_cases hc : ∃ d outcome, s.Completes call d outcome
  · obtain ⟨d, outcome, hc⟩ := hc
    cases ho : outcome.unsettled with
    | true => exact absurd (Reports.revokes (.inr ⟨outcome, hc, ho⟩)) h
    | false => exact .completed hc.1 hc.2 ho (step_settled hc ho)
  have hno : ∀ d, s.snapshot.inFlight = some d → completes call.op d = none := fun d hf =>
    Option.eq_none_iff_forall_ne_some.2 fun outcome ho => hc ⟨d, outcome, hf, ho⟩
  obtain ⟨op, now⟩ := call
  cases op with
  | command c =>
    cases c with
    | bindProfile p => exact s.bind_change p now
    | requestSafe =>
      simp only [step, apply, reply_fst, reply_snd, command, profile_none h]
      exact .rejected
    | acquire owner lifetime => exact s.acquire_change owner lifetime now
    | renewManual lease lifetime =>
      simp only [step, apply, reply_fst, reply_snd, command]
      split_ifs
      · exact .rejected
      · have := s.renew_change (fun l => .result (.lease l)) lease lifetime now ⟨lifetime, .inr rfl⟩
        rcases hr : s.renew lease lifetime now with ⟨e | u, t⟩ <;> rw [hr] at this <;> exact this
    | release lease =>
      obtain ⟨e, he⟩ := checkLease_error h
      simp only [step, apply, reply_fst, reply_snd, command, he]
      exact .rejected
    | trip =>
      simp only [step, apply, reply_fst, reply_snd, command, profile_none h]
      exact .rejected
    | acknowledgeFault =>
      simp only [step, apply, reply_fst, reply_snd, command]
      by_cases hg : s.snapshot.state ≠ .faultLatched ∨ s.snapshot.safeConfirmed = false ∨
          s.snapshot.inFlight.isSome = true ∨ s.safeObligationPending = true
      · rw [if_pos hg]; exact .rejected
      · rw [if_neg hg]
        simp only [not_or, not_not, Bool.not_eq_false, Option.not_isSome_iff_eq_none] at hg
        exact .cleared hg.1 hg.2.1 hg.2.2.1 (Bool.eq_false_of_not_eq_true hg.2.2.2)
    | propose q => exact s.propose_change q now
    | beginDispatch => exact s.begin_change now
    | complete id outcome =>
      simp only [step, apply, reply_fst, reply_snd, command]
      rw [complete_unknown s outcome now fun d hf hid => by simpa [completes, hid] using hno d hf]
      exact .rejected
    | tick => exact .ticked
  | tick =>
    simp only [step, apply, reply_fst, reply_snd, tick]
    cases hl : s.snapshot.lease with
    | none => exact .observed (by simp)
    | some l =>
      dsimp only
      rw [if_neg fun hx => h ⟨l, hl, hx⟩]
      exact .observed (by simp)
  | renewNative lease lifetime =>
    simp only [step, apply, reply_fst, reply_snd, renewNative]
    split_ifs
    · exact .rejected
    · exact s.renew_change _ lease lifetime now ⟨lifetime, .inl rfl⟩
  | reserveTransport queueDeadline attemptId generation revision =>
    exact s.reserve_change now queueDeadline attemptId generation revision
  | validateTransport i =>
    simp only [step, apply, reply_fst, reply_snd]
    cases s.validateTransport i now with
    | error e => exact .rejected
    | ok u => exact .observed (by simp)
  | beginTransport i => exact s.beginTransport_change i now
  | abortTransport i => exact s.abort_change i now
  | failTransportBeforeSend i => exact s.failTransport_change i now
  | transportUncertain id =>
    have hn : s.snapshot.inFlight.filter (fun d => d.id == id) = none := by
      refine Option.filter_eq_none_iff.2 fun d hf hid => h ⟨d, .inl ⟨hf, ?_⟩⟩
      rw [beq_iff_eq.1 hid]
    simp only [step, apply, reply_fst, reply_snd, transportUncertain, hn]
    exact .rejected
  | acknowledgeTransport id =>
    simp only [step, apply, reply_fst, reply_snd, acknowledgeTransport]
    cases hf : s.snapshot.inFlight with
    | none => exact .rejected
    | some d =>
      dsimp only
      split_ifs
      · exact .rejected
      · rw [permission_captureManual, ← hf]
        exact .observed (by simp)
  | completeTransport id outcome =>
    have hn : ∀ d, s.snapshot.inFlight = some d → d.id ≠ id := fun d hf hid => by
      simpa [completes, hid] using hno d hf
    simp only [step, apply, reply_fst, reply_snd, completeTransport, complete_unknown s outcome now hn]
    exact .rejected
  | completeTransportReadback id reported =>
    simp only [step, apply, reply_fst, reply_snd, completeTransportReadback]
    cases hf : s.snapshot.inFlight with
    | none => exact .rejected
    | some d =>
      dsimp only
      rw [readbackExact_unknown _ _ fun d' hf' hid => by simpa [completes, hid] using hno d' hf']
      exact .rejected
  | completeTransportReadbackExact id reported isMatch =>
    simp only [step, apply, reply_fst, reply_snd]
    rw [readbackExact_unknown _ _ fun d hf hid => by simpa [completes, hid] using hno d hf]
    exact .rejected
  | failTransportReadback id =>
    have hn : ∀ d, s.snapshot.inFlight = some d → d.id ≠ id := fun d hf hid => by
      simpa [completes, hid] using hno d hf
    have hu := complete_unknown { s with snapshot := { s.snapshot with
      readbackFailure := some .unavailable } } .ambiguous now hn
    simp only [step, apply, reply_fst, reply_snd, failTransportReadback, hu]
    exact .rejected
  | trackManualAttempt id virtualSimulation =>
    simp only [step, apply, trackManualAttempt]
    cases hr : s.snapshot.requested with
    | none => exact .observed (by simp)
    | some v => exact .observed (by simp)
  | failManualBeforeSend =>
    show Change _ _ _ _ s.failManualBeforeSend.permission
    rw [permission_failManual]
    exact .observed (by simp)

end OutputAuthority
end LabRuntime
