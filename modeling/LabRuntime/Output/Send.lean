import LabRuntime.Output.Invariant

/-! No ordinary send starts without an accepted proposal under the lease still stored: the
fence a revocation leaves on every lease issued before it, and the origin of every pending
value and of every reserved intent. -/

namespace LabRuntime

/-! ### The fence -/

namespace Permission

variable {c c' : Permission} {now : ℕ} {op : AuthorityOp} {r : Except Error AuthorityReply} {l : OutputLease}

/-- A lease no later call can revive: its epoch is past, or no epoch is left for a new lease. -/
def Fenced (l : OutputLease) (c : Permission) : Prop :=
  l.epoch < c.epoch ∨ (¬ c.epoch < u64Max ∧ c.lease = none)

theorem Fenced.not_holds (h : Fenced l c) : ¬ c.Holds l now := fun hl => by
  rcases h with h | ⟨-, h⟩
  · exact absurd hl.epoch h.ne
  · cases h.symm.trans hl.stored

/-- Epochs never go back, and at exhaustion a missing lease stays missing. -/
structure Follows (c c' : Permission) : Prop where
  epoch : c.epoch ≤ c'.epoch
  exhausted : ¬ c.epoch < u64Max → c.lease = none → c'.lease = none

theorem Follows.fenced (h : Follows c c') (hl : Fenced l c) : Fenced l c' := by
  rcases hl with hl | ⟨he, hl⟩
  · exact .inl (hl.trans_le h.epoch)
  · exact .inr ⟨fun h' => he (h.epoch.trans_lt h'), h.exhausted he hl⟩

theorem revoke_fences (he : l.epoch ≤ c.epoch) (fault : Bool) : Fenced l (c.revoke fault) := by
  by_cases h : c.epoch < u64Max
  · rw [revoke_of_lt h]; exact .inl (Nat.lt_succ_of_le he)
  · rw [revoke_of_not_lt h]; exact .inr ⟨h, rfl⟩

theorem revoke_follows (fault : Bool) : Follows c (c.revoke fault) := by
  by_cases h : c.epoch < u64Max
  · rw [revoke_of_lt h]; exact ⟨Nat.le_succ _, fun _ _ => rfl⟩
  · rw [revoke_of_not_lt h]; exact ⟨le_rfl, fun _ _ => rfl⟩

/-- Blocking a repeated safe write adds only its flag and the latched state. -/
theorem distrust_eq {d : Dispatch} :
    c.distrust d = { c.revoke true with blocked := (c.distrust d).blocked, state := (c.distrust d).state } := by
  unfold distrust; split_ifs <;> rfl

theorem revoke_drops (fault : Bool) : (c.revoke fault).lease = none ∧ (c.revoke fault).pending = none ∧
    ((c.revoke fault).reserved = none ∨ (c.revoke fault).reserved = c.reserved) := by
  by_cases h : c.epoch < u64Max
  · rw [revoke_of_lt h]; exact ⟨rfl, rfl, .inl rfl⟩
  · rw [revoke_of_not_lt h]; exact ⟨rfl, rfl, .inr rfl⟩

/-- A revocation leaves no lease and nothing pending, and makes no reservation. -/
theorem Revocation.drops (h : c.Revocation op c') :
    c'.lease = none ∧ c'.pending = none ∧ (c'.reserved = none ∨ c'.reserved = c.reserved) := by
  cases h with
  | requested fault => exact revoke_drops fault
  | uncertain => rw [distrust_eq]; exact revoke_drops true
  | failed => rw [distrust_eq]; exact revoke_drops (c := c.settle) true

theorem Revocation.follows (h : c.Revocation op c') : Follows c c' := by
  refine ⟨?_, fun _ _ => h.drops.1⟩
  cases h with
  | requested fault => exact (revoke_follows fault).epoch
  | uncertain => rw [distrust_eq]; exact (revoke_follows true).epoch
  | failed => rw [distrust_eq]; exact (revoke_follows (c := c.settle) true).epoch

theorem Revocation.epoch (h : c.Revocation op c') (he : c.epoch < u64Max) : c'.epoch = c.epoch + 1 := by
  cases h with
  | requested fault => rw [revoke_of_lt he]; rfl
  | uncertain => rw [distrust_eq, revoke_of_lt he]; rfl
  | failed => rw [distrust_eq, revoke_of_lt (c := c.settle) he]; rfl

theorem Revocation.fences (h : c.Revocation op c') (he : l.epoch ≤ c.epoch) : Fenced l c' := by
  cases h with
  | requested fault => exact revoke_fences he fault
  | uncertain => rw [distrust_eq]; exact revoke_fences he true
  | failed => rw [distrust_eq]; exact revoke_fences (c := c.settle) he true

theorem Revocation.limits (h : c.Revocation op c') : c'.limits = c.limits := by
  have hrevoke : ∀ (c : Permission) fault, (c.revoke fault).limits = c.limits := fun c fault => by
    unfold revoke; split_ifs <;> rfl
  cases h with
  | requested fault => exact hrevoke c fault
  | uncertain => rw [distrust_eq]; exact hrevoke c true
  | failed => rw [distrust_eq]; exact hrevoke c.settle true

theorem Change.limits (h : c.Change now op r c') : c'.limits = c.limits := by
  cases h with
  | sent => split_ifs <;> rfl
  | withdrawn => split_ifs <;> rfl
  | completed _ _ _ settled => cases settled <;> rfl
  | _ => rfl

theorem Change.follows (h : c.Change now op r c') : Follows c c' := by
  cases h with
  | latched => exact ⟨le_rfl, fun _ _ => rfl⟩
  | bound => exact ⟨Nat.le_succ _, fun _ h => h⟩
  | armed _ _ counter _ _ _ epoch => exact ⟨by simp [arm, epoch], fun h => absurd counter h⟩
  | renewed _ holds => exact ⟨le_rfl, fun _ h => by cases h.symm.trans holds.stored⟩
  | sent => split_ifs <;> exact ⟨le_rfl, fun _ h => h⟩
  | withdrawn => split_ifs <;> exact ⟨le_rfl, fun _ h => h⟩
  | completed _ _ _ settled => cases settled <;> exact ⟨le_rfl, fun _ h => h⟩
  | _ => exact ⟨le_rfl, fun _ h => h⟩

end Permission

namespace OutputAuthority
open History Permission

variable {s : OutputAuthority} {call : AuthorityCall} {d : Dispatch} {l : OutputLease}

theorem step_follows (s : OutputAuthority) (call : AuthorityCall) :
    Follows s.permission (s.step call).permission := by
  by_cases h : s.Revokes call
  · exact (step_revocation h).follows
  · exact (step_change h).follows

theorem limits_run (s : OutputAuthority) (calls : List AuthorityCall) : (run s calls).limits = s.limits :=
  run_stable (I := fun t => t.limits = s.limits) (fun t call h => by
    by_cases hr : t.Revokes call
    · exact (step_revocation hr).limits.trans h
    · exact (step_change hr).limits.trans h) rfl calls

theorem fenced_stable (l : OutputLease) : Stable step (fun s => Fenced l s.permission) :=
  fun s call h => (step_follows s call).fenced h

theorem epoch_run (s : OutputAuthority) (calls : List AuthorityCall) :
    s.snapshot.epoch ≤ (run s calls).snapshot.epoch :=
  run_stable (I := fun t => s.snapshot.epoch ≤ t.snapshot.epoch)
    (fun t call h => h.trans (step_follows t call).epoch) le_rfl calls

/-! ### What a started send has passed -/

/-- The operations that can revoke. -/
def revoking : AuthorityOp → Bool
  | .command .requestSafe | .command .trip | .command (.release _) | .command (.complete ..) => true
  | .tick | .transportUncertain _ | .completeTransport .. | .completeTransportReadback .. => true
  | .completeTransportReadbackExact .. | .failTransportReadback _ => true
  | _ => false

theorem Revokes.revoking (h : s.Revokes call) : revoking call.op = true := by
  obtain ⟨op, now⟩ := call
  have hno : ∀ d, (∀ id, op ≠ .transportUncertain id) → completes op d = none → ¬ s.Reports ⟨op, now⟩ d := by
    rintro d h1 h2 (⟨-, h⟩ | ⟨outcome, h, -⟩)
    · exact h1 _ h
    · cases h2.symm.trans h.2
  cases op with
  | command c =>
    cases c with
    | requestSafe | trip | release | complete => rfl
    | _ => obtain ⟨d, hd⟩ := h; exact absurd hd (hno d (by simp) rfl)
  | tick | transportUncertain | completeTransport => rfl
  | completeTransportReadback | completeTransportReadbackExact | failTransportReadback => rfl
  | _ => obtain ⟨d, hd⟩ := h; exact absurd hd (hno d (by simp) rfl)

theorem not_revokes (h : revoking call.op = false) : ¬ s.Revokes call :=
  fun hr => by cases h.symm.trans hr.revoking

/-- A simulated send or a transport send, with what its final check has established. -/
inductive SendCheck (c : Permission) (now : ℕ) (d : Dispatch) : AuthorityOp → Prop
  | simulated (source : (c.obligation = true ∧ c.blocked = false ∧ d.safe = true) ∨
      (c.obligation = false ∧ d.safe = false ∧ ∃ p, c.pending = some p ∧ c.Holds p.lease now ∧
        now < p.expires ∧ d.value = p.value)) : SendCheck c now d (.command .beginDispatch)
  | transport {i j : OutputIntent} {p} (reservation : c.reserved = some j) (same : (j == i) = true)
    (fresh : now < i.expires) (value : d.value = i.value) (safe : d.safe = i.safe)
    (limits : c.limits.validate (.float i.value) = .ok ()) (profile : c.profile = some p)
    (range : (ValueSpec.float p.min p.max).validate (.float i.value) = .ok ())
    (source : (i.safe = true ∧ c.obligation = true) ∨
      (i.safe = false ∧ ∃ l, i.lease = some l ∧ c.Holds l now)) : SendCheck c now d (.beginTransport i)

theorem Starts.check (h : s.Starts call d) : s.permission.inFlight = none ∧
    d.epoch = s.permission.epoch ∧ (s.step call).permission.epoch = s.permission.epoch ∧
    SendCheck s.permission call.now d call.op := by
  obtain ⟨hop, hok, hd⟩ := h
  obtain ⟨op, now⟩ := call
  dsimp only at hop
  have hr : revoking op = false := by rcases hop with rfl | ⟨i, rfl⟩ <;> rfl
  have hno : ¬ s.Revokes ⟨op, now⟩ := not_revokes hr
  have hc := step_change hno
  have hd' : (s.step ⟨op, now⟩).permission.inFlight = some d := hd
  generalize (s.step ⟨op, now⟩).permission = c' at hc hd'
  generalize (s.apply ⟨op, now⟩).1 = r at hc hok
  dsimp only at hc ⊢
  cases hc with
  | rejected | dropped | latched => cases hok
  | begun settled reservation id epoch source =>
    cases hd'
    refine ⟨settled, epoch, rfl, .simulated ?_⟩
    rcases source with ⟨ho, hb, hs, -⟩ | h
    · exact .inl ⟨ho, hb, hs⟩
    · exact .inr h
  | sent settled reservation same epoch fresh id dispatched value safe limits profile range source =>
    cases hd'
    refine ⟨settled, dispatched.trans epoch, by split_ifs <;> rfl, ?_⟩
    exact .transport reservation same fresh value safe limits profile range source
  | observed silent =>
    rcases hop with rfl | ⟨i, rfl⟩
    · exact absurd rfl silent.1
    · exact absurd rfl (silent.2 i)
  | renewed renews => obtain ⟨_, rfl | rfl⟩ := renews <;> simp at hop
  | withdrawn withdraws => rcases withdraws with rfl | rfl <;> simp at hop
  | completed flight completes =>
    rcases hop with rfl | ⟨i, rfl⟩ <;> cases completes
  | _ => simp at hop

/-- An accepted acquisition found the authority disarmed, confirmed safe and with an epoch left. -/
theorem Acquires.check (h : s.Acquires call) : s.permission.state = .disarmed ∧
    s.permission.safeConfirmed = true ∧ s.permission.epoch < u64Max ∧
    (s.step call).permission.epoch = s.permission.epoch + 1 := by
  obtain ⟨owner, lifetime, lease, hop, hok⟩ := h
  obtain ⟨op, now⟩ := call
  dsimp only at hop
  subst hop
  have hr : ¬ s.Revokes ⟨.command (.acquire owner lifetime), now⟩ := not_revokes rfl
  have hc := step_change hr
  rw [hok] at hc
  dsimp only at hc
  generalize (s.step ⟨_, now⟩).permission = c' at hc ⊢
  cases hc with
  | armed state safe counter actuator instanceId owned epoch => exact ⟨state, safe, counter, epoch⟩
  | renewed renews => obtain ⟨_, h | h⟩ := renews <;> cases h
  | completed flight completes => cases completes

/-! ### The origin of pending values and reserved intents -/

/-- The call is an accepted proposal of exactly `v` under the lease `l`, good until `e`. -/
def Proposes (l : OutputLease) (v : F64) (e : ℕ) (s : OutputAuthority) (call : AuthorityCall) : Prop :=
  ∃ proposal, call.op = .command (.propose proposal) ∧ (s.apply call).1 = .ok (.result .queued) ∧
    proposal.lease = l ∧ proposal.value = .float v ∧ e ≤ call.now + proposal.ttl ∧ e ≤ l.expires ∧
    s.permission.Holds l call.now

/-- The call is a reservation that returned the intent `i`. -/
def Issues (i : OutputIntent) (s : OutputAuthority) (call : AuthorityCall) : Prop :=
  (∃ queueDeadline attemptId generation revision,
    call.op = .reserveTransport queueDeadline attemptId generation revision) ∧
    (s.apply call).1 = .ok (.intent i)

theorem pending_step {q : Pending} (h : (s.step call).permission.pending = some q) :
    s.permission.pending = some q ∨ Proposes q.lease q.value q.expires s call := by
  by_cases hr : s.Revokes call
  · cases (step_revocation hr).drops.2.1.symm.trans h
  · have hc := step_change hr
    unfold Proposes
    generalize (s.step call).permission = c' at hc h
    generalize (s.apply call).1 = r at hc
    obtain ⟨op, now⟩ := call
    dsimp only at hc
    cases hc with
    | queued holds value profile range slot =>
      cases h
      exact .inr ⟨_, rfl, rfl, rfl, value, min_le_left _ _, min_le_right _ _, holds⟩
    | sent =>
      split_ifs at h
      · exact .inl h
      · cases h
    | withdrawn =>
      split_ifs at h
      · exact .inl h
      · cases h
    | completed _ _ _ settled => left; cases settled <;> exact h
    | dropped | latched | bound | begun => cases h
    | _ => exact .inl h

theorem reserved_step {i : OutputIntent} (h : (s.step call).permission.reserved = some i) :
    s.permission.reserved = some i ∨ Issues i s call := by
  by_cases hr : s.Revokes call
  · rcases (step_revocation hr).drops.2.2 with hn | hn
    · cases hn.symm.trans h
    · exact .inl (hn.symm.trans h)
  · have hc := step_change hr
    unfold Issues
    generalize (s.step call).permission = c' at hc h
    generalize (s.apply call).1 = r at hc
    obtain ⟨op, now⟩ := call
    dsimp only at hc
    cases hc with
    | reserved => cases h; exact .inr ⟨⟨_, _, _, _, rfl⟩, rfl⟩
    | sent => cases h
    | withdrawn => split_ifs at h
    | completed _ _ _ settled => left; cases settled <;> exact h
    | _ => left; exact h

variable {init : OutputAuthority} {calls : List AuthorityCall}

/-- Every pending value was proposed exactly so by an accepted call. -/
theorem pending_origin (hinit : init.pending = none) {q : Pending}
    (h : (run init calls).pending = some q) :
    Happens step (Proposes q.lease q.value q.expires) init calls := by
  induction calls using List.reverseRecOn with
  | nil => cases hinit.symm.trans h
  | append_singleton calls call ih =>
    simp only [run, after_append] at h
    rcases pending_step (s := run init calls) h with h | h
    · exact (ih h).append _
    · exact (happens_snoc call).2 (.inr h)

/-- Every reservation was returned by an accepted call. -/
theorem reserved_origin (hinit : init.transportReserved = none) {i : OutputIntent}
    (h : (run init calls).transportReserved = some i) : Happens step (Issues i) init calls := by
  induction calls using List.reverseRecOn with
  | nil => cases hinit.symm.trans h
  | append_singleton calls call ih =>
    simp only [run, after_append] at h
    rcases reserved_step (s := run init calls) h with h | h
    · exact (ih h).append _
    · exact (happens_snoc call).2 (.inr h)

theorem Issues.pending {i : OutputIntent} (h : Issues i s call) (hi : i.safe = false) :
    ∃ q, s.permission.pending = some q ∧ i.lease = some q.lease ∧ i.value = q.value ∧
      i.expires ≤ q.expires := by
  obtain ⟨⟨deadline, attempt, generation, revision, hop⟩, hok⟩ := h
  obtain ⟨op, now⟩ := call
  dsimp only at hop
  subst hop
  have hr : ¬ s.Revokes ⟨.reserveTransport deadline attempt generation revision, now⟩ := not_revokes rfl
  have hc := step_change hr
  rw [hok] at hc
  dsimp only at hc
  generalize (s.step ⟨_, now⟩).permission = c' at hc
  cases hc with
  | reserved settled reservation epoch source =>
    rcases source with ⟨-, -, hs, -⟩ | ⟨-, -, q, hq, hl, -, hx, hv⟩
    · cases hi.symm.trans hs
    · exact ⟨q, hq, hl, hv, hx⟩
  | renewed renews => obtain ⟨_, h | h⟩ := renews <;> cases h
  | completed flight completes => cases completes

/-- An ordinary intent carries exactly the value and lease of an accepted proposal. -/
theorem issued_origin (hinit : init.pending = none) {i : OutputIntent}
    (h : Happens step (Issues i) init calls) (hi : i.safe = false) :
    ∃ l, i.lease = some l ∧ Happens step (Proposes l i.value i.expires) init calls := by
  obtain ⟨pre, call, post, rfl, h⟩ := h
  obtain ⟨q, hq, hl, hv, hx⟩ := h.pending hi
  refine ⟨q.lease, hl, ((pending_origin hinit hq).mono fun s call hp => ?_).append _⟩
  obtain ⟨proposal, h1, h2, h3, h4, h5, h6, h7⟩ := hp
  exact ⟨proposal, h1, h2, h3, hv ▸ h4, hx.trans h5, hx.trans h6, h7⟩

/-! ### The law of ordinary sends -/

/-- A lease that passes the check now has met neither a revocation nor an acquisition since the
proposal it was checked for. -/
theorem proposes_since {v : F64} {e now : ℕ} (h : Happens step (Proposes l v e) init calls)
    (hl : (run init calls).permission.Holds l now) :
    Since step (Proposes l v e) (fun s c => s.Revokes c ∨ s.Acquires c) init calls := by
  obtain ⟨pre, call, post, rfl, hp⟩ := h
  refine ⟨pre, call, post, rfl, hp, ?_⟩
  rintro ⟨mid, c, rest, rfl, hc⟩
  have hfollow : l.epoch ≤ (run init (pre ++ call :: mid)).snapshot.epoch := by
    obtain ⟨_, _, _, _, _, _, _, hh⟩ := hp
    rw [hh.epoch]
    show (after step init pre).snapshot.epoch ≤ _
    simpa [run] using epoch_run (run init pre) (call :: mid)
  have hsplit : pre ++ call :: (mid ++ c :: rest) = (pre ++ call :: mid) ++ c :: rest := by simp
  have hmid : after step (after step init (pre ++ [call])) mid = run init (pre ++ call :: mid) := by
    simp [run]
  rw [hmid] at hc
  have hfence : Fenced l ((run init (pre ++ call :: mid)).step c).permission := by
    rcases hc with hr | ha
    · exact (step_revocation hr).fences hfollow
    · exact .inl (ha.check.2.2.2 ▸ Nat.lt_succ_of_le hfollow)
  have hend := (fenced_stable l).after hfence rest
  rw [hsplit, run, after_append, after_cons] at hl
  exact hend.not_holds hl

/-- What an ordinary send of `d` at `now` rests on: an accepted proposal of `v` under the lease
that is still stored, in time, with no revocation and no acquisition since. -/
def Authorized (init : OutputAuthority) (calls : List AuthorityCall) (now : ℕ) (v : F64) : Prop :=
  ∃ pre proposal proposedAt post,
    calls = pre ++ ⟨.command (.propose proposal), proposedAt⟩ :: post ∧
    ((run init pre).apply ⟨.command (.propose proposal), proposedAt⟩).1 = .ok (.result .queued) ∧
    proposal.value = .float v ∧ now < proposal.lease.expires ∧ now < proposedAt + proposal.ttl ∧
    (run init calls).snapshot.lease = some proposal.lease ∧
    ∀ mid call rest, post = mid ++ call :: rest →
      let t := run init (pre ++ ⟨.command (.propose proposal), proposedAt⟩ :: mid)
      ¬ t.Revokes call ∧ ¬ t.Acquires call

theorem authorized_of_proposes {v : F64} {e now : ℕ} (h : Happens step (Proposes l v e) init calls)
    (hl : (run init calls).permission.Holds l now) (hx : now < e) : Authorized init calls now v := by
  obtain ⟨pre, ⟨op, proposedAt⟩, post, rfl, hp, hsince⟩ := proposes_since h hl
  obtain ⟨proposal, hop, hok, rfl, hv, h1, h2, -⟩ := hp
  dsimp only at hop h1
  subst hop
  refine ⟨pre, proposal, proposedAt, post, rfl, hok, hv, hx.trans_le h2, hx.trans_le h1, hl.stored, ?_⟩
  rintro mid call rest rfl
  have hno : ¬ ((run init (pre ++ ⟨.command (.propose proposal), proposedAt⟩ :: mid)).Revokes call ∨
      (run init (pre ++ ⟨.command (.propose proposal), proposedAt⟩ :: mid)).Acquires call) := fun hc =>
    hsince ⟨mid, call, rest, rfl, by simpa [run] using hc⟩
  exact ⟨fun hr => hno (.inl hr), fun ha => hno (.inr ha)⟩

/-- A value the profile accepts is one the descriptor accepts. -/
theorem limits_of_range {c : Permission} (h : c.Wf) {p : SafeProfile} {v : F64} (hp : c.profile = some p)
    (hv : (ValueSpec.float p.min p.max).validate (.float v) = .ok ()) :
    c.limits.validate (.float v) = .ok () := by
  obtain ⟨-, hlow, hhigh⟩ := h.profile p hp
  obtain ⟨lo, hi, hlim, hlo, hhi, -, h1, -⟩ := validate_float_ok hlow
  obtain ⟨lo', hi', hlim', -, -, -, -, h2⟩ := validate_float_ok hhigh
  obtain ⟨rfl, rfl⟩ : lo = lo' ∧ hi = hi' := by simpa [hlim] using hlim'
  obtain ⟨_, _, he, -, -, hfin, h3, h4⟩ := validate_float_ok hv
  obtain ⟨rfl, rfl⟩ : p.min = _ ∧ p.max = _ := by simpa using he
  rw [hlim]
  exact validate_float_of_bounds hlo hhi hfin (F64.le_trans h1 h3) (F64.le_trans h4 h2)

/-- No ordinary output is started under revoked, expired or foreign authority. Whatever calls were
made at whatever times, a started ordinary send has an accepted proposal of its value under the
lease still stored, in time for lease and proposal, with no revocation or acquisition since, and the
value is within profile and descriptor. The value is the proposed one to the bit for a simulated
send and for an intent this authority returned; an intent forged with the other sign of zero passes
the source's `==`. And a lease once stored never passes the check again after a revocation. -/
theorem ordinary_send_authorized (instanceId : ℕ) (actuator : ActuatorId) (limits : ValueSpec)
    (unit : EngineeringUnit) :
    let init := new instanceId actuator limits unit
    (∀ calls call d, (run init calls).Starts call d → d.safe = false →
      (∃ v, (d.value == v) = true ∧ Authorized init calls call.now v) ∧
      (call.op = .command .beginDispatch ∨
          (∃ i, call.op = .beginTransport i ∧ Happens step (Issues i) init calls) →
        Authorized init calls call.now d.value) ∧
      (∃ p, (run init calls).snapshot.profile = some p ∧
        (ValueSpec.float p.min p.max).validate (.float d.value) = .ok () ∧
        limits.validate (.float d.value) = .ok ())) ∧
    (∀ granted since call later l now, (run init granted).snapshot.lease = some l →
      (run init (granted ++ since)).Revokes call →
      (run init (granted ++ since ++ call :: later)).checkLease l now ≠ .ok ()) := by
  intro init
  have hpending : init.pending = none := rfl
  have hreserved : init.transportReserved = none := rfl
  refine ⟨fun calls call d hstart hsafe => ?_, fun granted since call later l now hstored hrevokes => ?_⟩
  · have hw : (run init calls).permission.Wf := wf_run instanceId actuator limits unit calls
    have hlimits : (run init calls).permission.limits = limits := limits_run init calls
    obtain ⟨-, -, -, hcheck⟩ := hstart.check
    obtain ⟨op, now⟩ := call
    dsimp only at hcheck ⊢
    cases hcheck with
    | simulated source =>
      rcases source with ⟨-, -, hs⟩ | ⟨-, -, q, hq, hl, hx, hv⟩
      · cases hsafe.symm.trans hs
      have hauth : Authorized init calls now d.value :=
        hv ▸ authorized_of_proposes (pending_origin hpending hq) hl hx
      obtain ⟨p, hp⟩ := Option.ne_none_iff_exists'.1 (hw.holds hl)
      have hrange := hv ▸ hw.range q p hq hp
      obtain ⟨_, _, -, -, -, hfinite, -, -⟩ := validate_float_ok hrange
      exact ⟨⟨d.value, F64.beq_self (F64.isNan_of_isFinite hfinite), hauth⟩, fun _ => hauth, p, hp, hrange,
        hlimits ▸ limits_of_range hw hp hrange⟩
    | @transport i j p reservation same fresh value safe lims profile range source =>
      obtain ⟨-, -, -, hlease, -, hvalue, -, hexpires, hsame, -, -⟩ := (OutputIntent.beq_iff j i).1 same
      have hi : i.safe = false := safe.symm.trans hsafe
      rcases source with ⟨hs, -⟩ | ⟨-, l, hl, hh⟩
      · cases hi.symm.trans hs
      obtain ⟨lj, hlj, hj⟩ := issued_origin hpending (reserved_origin hreserved reservation) (hsame.trans hi)
      obtain rfl : lj = l := Option.some.inj (hlj.symm.trans (hlease.trans hl))
      refine ⟨⟨j.value, ?_, authorized_of_proposes hj hh (hexpires ▸ fresh)⟩, fun hgenuine => ?_, p, profile,
        value ▸ range, hlimits ▸ value ▸ lims⟩
      · exact value ▸ F64.beq_symm hvalue
      · rcases hgenuine with hop | ⟨i', hop, hissued⟩
        · cases hop
        cases hop
        obtain ⟨li, hli, hi'⟩ := issued_origin hpending hissued hi
        obtain rfl : li = lj := Option.some.inj (hli.symm.trans hl)
        exact value ▸ authorized_of_proposes hi' hh fresh
  · have hfence : Fenced l ((run init (granted ++ since)).step call).permission := by
      have hcur := (wf_run instanceId actuator limits unit granted).current l hstored
      refine (step_revocation hrevokes).fences ?_
      rw [hcur.2.2]
      show (run init granted).snapshot.epoch ≤ (run init (granted ++ since)).snapshot.epoch
      simpa [run] using epoch_run (run init granted) since
    have hend := (fenced_stable l).after hfence later
    rw [ne_eq, checkLease_ok]
    simpa [run] using hend.not_holds

/-! ### A heater -/

/-- A heater of 0 to 100 percent whose profile asks for a readback. -/
def heater : OutputAuthority :=
  new 1 ⟨1, 2⟩ (.float ⟨0⟩ ⟨0x4059000000000000⟩) .percent

def heaterProfile : SafeProfile where
  min := ⟨0⟩
  max := ⟨0x4059000000000000⟩
  safeValue := ⟨0⟩
  maxLease := fromSecs 1
  maxProposalTtl := fromMillis 100
  requiredEvidence := .readback

def heaterLease : OutputLease :=
  { actuator := ⟨1, 2⟩, instanceId := 1, owner := .automatic 1, epoch := 3, expires := fromSecs 1 }

/-- Bind, confirm the safe value, acquire and propose 90 percent. -/
def heaterCalls : List AuthorityCall :=
  [⟨.command (.bindProfile heaterProfile), 0⟩, ⟨.command .requestSafe, 0⟩, ⟨.command .beginDispatch, 0⟩,
   ⟨.command (.complete ⟨1, 1⟩ .readbackVerified), 0⟩,
   ⟨.command (.acquire (.automatic 1) (fromSecs 1)), 0⟩,
   ⟨.command (.propose ⟨heaterLease, .float ⟨0x4056800000000000⟩, .percent, fromMillis 100⟩), 0⟩]

/-- The heater's 90 percent may be sent at once, and its lease is worthless after a trip. -/
theorem ordinary_send_authorized_heater :
    Authorized heater heaterCalls 0 ⟨0x4056800000000000⟩ ∧
      (run heater (heaterCalls ++ [] ++ ⟨.command .trip, 1⟩ :: [])).checkLease heaterLease 2 ≠ .ok () := by
  have h := ordinary_send_authorized 1 ⟨1, 2⟩ (.float ⟨0⟩ ⟨0x4059000000000000⟩) .percent
  have hsend := h.1 heaterCalls ⟨.command .beginDispatch, 0⟩
    { id := ⟨1, 2⟩, value := ⟨0x4056800000000000⟩, safe := false, epoch := 3 } ⟨.inl rfl, by decide, by decide⟩ rfl
  exact ⟨hsend.2.1 (.inl rfl), h.2 heaterCalls [] ⟨.command .trip, 1⟩ [] heaterLease 2 (by decide) rfl⟩

end OutputAuthority
end LabRuntime
