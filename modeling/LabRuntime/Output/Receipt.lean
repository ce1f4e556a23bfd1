import LabRuntime.Output.Lease

/-! The receipt of a manual write. `Handles` lists what one call can do to it; from that, that an unsettled
receipt is queued or in flight, and that a settled one is left alone. -/

namespace LabRuntime

namespace ManualOutputAttempt

def failBeforeSend (t : ManualOutputAttempt) : ManualOutputAttempt :=
  if !t.terminal && t.dispatch.isNone then { t with terminal := true, outcome := some .failed } else t

def sendStarted (t : ManualOutputAttempt) (d : Dispatch) (sent : Option OutputObservation) : ManualOutputAttempt :=
  if !d.safe && !t.terminal && t.dispatch.isNone then { t with dispatch := some d.id, sent := sent } else t

def capture (t : ManualOutputAttempt) (snapshot : OutputSnapshot) (id : DispatchId) (terminal : Bool) :
    ManualOutputAttempt :=
  if !t.terminal && t.dispatch == some id then
    { t with
      terminal := terminal
      outcome := if terminal then snapshot.outcome else none
      acknowledged := snapshot.acknowledged
      readback := snapshot.readback
      reportedReadback := snapshot.reportedReadback
      readbackFailure := snapshot.readbackFailure }
  else t

/-- The same attempt later: what was settled is as it was. -/
structure Follows (t t' : ManualOutputAttempt) : Prop where
  id : t'.id = t.id
  requested : t'.requested = t.requested
  settled : t.terminal = true → t' = t

variable (t : ManualOutputAttempt)

theorem Follows.refl : Follows t t := ⟨rfl, rfl, fun _ => rfl⟩

theorem failBeforeSend_follows : Follows t t.failBeforeSend := by
  unfold failBeforeSend
  split_ifs with h
  · exact ⟨rfl, rfl, fun hterminal => by simp [hterminal] at h⟩
  · exact .refl t

theorem sendStarted_follows (d : Dispatch) (sent : Option OutputObservation) : Follows t (t.sendStarted d sent) := by
  unfold sendStarted
  split_ifs with h
  · exact ⟨rfl, rfl, fun hterminal => by simp [hterminal] at h⟩
  · exact .refl t

theorem capture_follows (snapshot : OutputSnapshot) (id : DispatchId) (terminal : Bool) :
    Follows t (t.capture snapshot id terminal) := by
  unfold capture
  by_cases h : (!t.terminal && t.dispatch == some id) = true
  · rw [if_pos h]
    exact ⟨rfl, rfl, fun hterminal => by simp [hterminal] at h⟩
  · rw [if_neg h]
    exact .refl t

theorem Follows.trans {t t' t'' : ManualOutputAttempt} (h : Follows t t') (h' : Follows t' t'') : Follows t t'' where
  id := h'.id.trans h.id
  requested := h'.requested.trans h.requested
  settled hterminal := by
    have hsame := h.settled hterminal
    rw [h'.settled (hsame ▸ hterminal), hsame]

/-- What is still open was open. -/
theorem Follows.unsettled {t t' : ManualOutputAttempt} (h : Follows t t') (hopen : t'.terminal = false) : t.terminal = false := by
  cases hterminal : t.terminal with
  | false => rfl
  | true =>
    rw [h.settled hterminal, hterminal] at hopen
    cases hopen

/-- What is still open after a failure before the send was sent before. -/
theorem failBeforeSend_open {t : ManualOutputAttempt} (h : t.failBeforeSend.terminal = false) :
    t.failBeforeSend = t ∧ t.dispatch.isSome = true := by
  unfold failBeforeSend at h ⊢
  split_ifs at h ⊢ with hopen
  refine ⟨rfl, ?_⟩
  simpa [h, Option.isSome_iff_ne_none] using hopen

/-- A started send names its dispatch, unless it is safe. -/
theorem sendStarted_open {t : ManualOutputAttempt} {d : Dispatch} {sent : Option OutputObservation}
    (h : (t.sendStarted d sent).terminal = false) (hunsent : t.dispatch = none) :
    t.terminal = false ∧ (d.safe = false ∧ (t.sendStarted d sent).dispatch = some d.id ∨
      d.safe = true ∧ t.sendStarted d sent = t) := by
  unfold sendStarted at h ⊢
  cases hsafe : d.safe with
  | false =>
    cases hterminal : t.terminal with
    | false => simp [hunsent]
    | true => simp [hsafe, hterminal] at h
  | true =>
    simp only [hsafe, Bool.not_true, Bool.false_and, Bool.false_eq_true, if_false] at h ⊢
    exact ⟨h, .inr ⟨trivial, trivial⟩⟩

/-- What is still open after a completion was not its. -/
theorem capture_open {t : ManualOutputAttempt} {snapshot : OutputSnapshot} {id : DispatchId}
    (h : (t.capture snapshot id true).terminal = false) : t.capture snapshot id true = t ∧ t.dispatch ≠ some id := by
  unfold capture at h ⊢
  split_ifs at h ⊢ with hopen
  refine ⟨rfl, fun hid => ?_⟩
  simp [h, hid] at hopen

end ManualOutputAttempt

namespace OutputAuthority

variable (s : OutputAuthority)

theorem failManual_attempt : s.failManualBeforeSend.snapshot.manualAttempt =
    s.snapshot.manualAttempt.map ManualOutputAttempt.failBeforeSend := by
  unfold failManualBeforeSend ManualOutputAttempt.failBeforeSend
  cases h : s.snapshot.manualAttempt with
  | none => simpa using h
  | some t =>
    dsimp only [Option.map_some]
    split_ifs
    · rfl
    · exact h

theorem manualSendStarted_attempt (d : Dispatch) : (s.manualSendStarted d).snapshot.manualAttempt =
    s.snapshot.manualAttempt.map fun t => t.sendStarted d s.snapshot.sent := by
  unfold manualSendStarted ManualOutputAttempt.sendStarted
  cases h : s.snapshot.manualAttempt with
  | none => simpa using h
  | some t =>
    dsimp only [Option.map_some]
    split_ifs
    · rfl
    · exact h

theorem captureManual_attempt (id : DispatchId) (terminal : Bool) :
    (s.captureManualDelivery id terminal).snapshot.manualAttempt =
      s.snapshot.manualAttempt.map fun t => t.capture s.snapshot id terminal := by
  unfold captureManualDelivery ManualOutputAttempt.capture
  cases h : s.snapshot.manualAttempt with
  | none => simpa using h
  | some t =>
    dsimp only [Option.map_some]
    by_cases hopen : (!t.terminal && t.dispatch == some id) = true
    · rw [if_pos hopen, if_pos hopen]
    · rw [if_neg hopen, if_neg hopen, h]

/-! ### What a call does to the receipt -/

/-- The receipt and what it waits on are as they were. -/
structure SameReceipt (s s' : OutputAuthority) : Prop where
  attempt : s'.snapshot.manualAttempt = s.snapshot.manualAttempt
  pending : s'.pending = s.pending
  reserved : s'.transportReserved = s.transportReserved
  flight : s'.snapshot.inFlight = s.snapshot.inFlight

/-- What a call other than the start of a manual write does to the receipt and what it waits on. -/
inductive Handles (s s' : OutputAuthority) : Prop
  | kept (same : SameReceipt s s')
  | queued (slot : s.pending = none) (attempt : s'.snapshot.manualAttempt = s.snapshot.manualAttempt)
    (reserved : s'.transportReserved = s.transportReserved) (flight : s'.snapshot.inFlight = s.snapshot.inFlight)
  | idled (settled : s.snapshot.inFlight = none) (unreserved : s.transportReserved = none)
    (attempt : s'.snapshot.manualAttempt = s.snapshot.manualAttempt) (flight : s'.snapshot.inFlight = none)
  | launched {d sent} (settled : s.snapshot.inFlight = none)
    (source : ∀ i, s.transportReserved = some i → i.safe = d.safe)
    (attempt : s'.snapshot.manualAttempt = s.snapshot.manualAttempt.map fun t => t.sendStarted d sent)
    (flight : s'.snapshot.inFlight = some d)
  | completed {d snapshot} (flight : s.snapshot.inFlight = some d)
    (attempt : s'.snapshot.manualAttempt = s.snapshot.manualAttempt.map (fun t => t.capture snapshot d.id true) ∨
      s'.snapshot.manualAttempt =
        (s.snapshot.manualAttempt.map fun t => t.capture snapshot d.id true).map ManualOutputAttempt.failBeforeSend)
  | revoked (attempt : s'.snapshot.manualAttempt = s.snapshot.manualAttempt.map ManualOutputAttempt.failBeforeSend)
    (flight : s'.snapshot.inFlight = s.snapshot.inFlight)
  | withdrawn {i} (reservation : s.transportReserved = some i) (safe : i.safe = true)
    (attempt : s'.snapshot.manualAttempt = s.snapshot.manualAttempt) (flight : s'.snapshot.inFlight = s.snapshot.inFlight)
  | acknowledged {id snapshot}
    (attempt : s'.snapshot.manualAttempt = s.snapshot.manualAttempt.map fun t => t.capture snapshot id false)
    (pending : s'.pending = s.pending) (reserved : s'.transportReserved = s.transportReserved)
    (flight : s'.snapshot.inFlight = s.snapshot.inFlight)

/-- An unsettled receipt was not sent yet, or its send is the one in flight. -/
def Tracks (s : OutputAuthority) : Prop :=
  ∀ t, s.snapshot.manualAttempt = some t → t.terminal = false →
    t.dispatch = none ∨ ∃ d, s.snapshot.inFlight = some d ∧ d.safe = false ∧ t.dispatch = some d.id

/-- An unsettled receipt that was not sent is that of the pending proposal, reserved for the transport queue. -/
def Queues (s : OutputAuthority) : Prop :=
  ∀ t, s.snapshot.manualAttempt = some t → t.terminal = false → t.dispatch = none →
    ∃ q i, s.pending = some q ∧ q.value = t.requested ∧ s.transportReserved = some i ∧ i.safe = false ∧
      i.attemptId = some t.id

variable {s}
variable {s' : OutputAuthority}

theorem Handles.tracks (h : Handles s s') (ht : s.Tracks) : s'.Tracks := by
  intro t' ht' hopen
  cases h with
  | kept same =>
    rw [same.attempt] at ht'
    rw [same.flight]
    exact ht t' ht' hopen
  | queued _ attempt _ flight | withdrawn _ _ attempt flight =>
    rw [attempt] at ht'
    rw [flight]
    exact ht t' ht' hopen
  | idled settled _ attempt flight =>
    rw [attempt] at ht'
    rw [flight, ← settled]
    exact ht t' ht' hopen
  | launched settled _ attempt flight =>
    rw [attempt] at ht'
    obtain ⟨t, hget, rfl⟩ := Option.map_eq_some_iff.1 ht'
    have hunsent : t.terminal = false → t.dispatch = none := fun hterminal => by
      obtain hnone | ⟨d, hflight, -⟩ := ht t hget hterminal
      · exact hnone
      · cases settled.symm.trans hflight
    have hterminal := (t.sendStarted_follows _ _).unsettled hopen
    obtain ⟨-, ⟨hsafe, hid⟩ | ⟨-, hsame⟩⟩ := ManualOutputAttempt.sendStarted_open hopen (hunsent hterminal)
    · exact .inr ⟨_, flight, hsafe, hid⟩
    · exact .inl (by rw [hsame]; exact hunsent hterminal)
  | completed flight attempt =>
    obtain attempt | attempt := attempt
    · rw [attempt] at ht'
      obtain ⟨t, hget, rfl⟩ := Option.map_eq_some_iff.1 ht'
      obtain ⟨hsame, hother⟩ := ManualOutputAttempt.capture_open hopen
      rw [hsame] at hopen ⊢
      obtain hnone | ⟨d', hflight, -, hid⟩ := ht t hget hopen
      · exact .inl hnone
      · obtain rfl := Option.some.inj (flight.symm.trans hflight)
        exact absurd hid hother
    · rw [attempt, Option.map_map] at ht'
      obtain ⟨t, hget, rfl⟩ := Option.map_eq_some_iff.1 ht'
      obtain ⟨hfail, hsent⟩ := ManualOutputAttempt.failBeforeSend_open hopen
      dsimp only [Function.comp] at hopen hfail hsent
      rw [hfail] at hopen
      obtain ⟨hsame, hother⟩ := ManualOutputAttempt.capture_open hopen
      rw [hsame] at hopen hsent
      obtain hnone | ⟨d', hflight, -, hid⟩ := ht t hget hopen
      · simp [hnone] at hsent
      · obtain rfl := Option.some.inj (flight.symm.trans hflight)
        exact absurd hid hother
  | revoked attempt flight =>
    rw [attempt] at ht'
    obtain ⟨t, hget, rfl⟩ := Option.map_eq_some_iff.1 ht'
    obtain ⟨hsame, -⟩ := ManualOutputAttempt.failBeforeSend_open hopen
    rw [hsame] at hopen ⊢
    rw [flight]
    exact ht t hget hopen
  | @acknowledged id snapshot attempt _ _ flight =>
    rw [attempt] at ht'
    obtain ⟨t, hget, rfl⟩ := Option.map_eq_some_iff.1 ht'
    have hdispatch : (t.capture snapshot id false).dispatch = t.dispatch := by
      unfold ManualOutputAttempt.capture
      split_ifs <;> rfl
    rw [hdispatch, flight]
    exact ht t hget ((t.capture_follows snapshot id false).unsettled hopen)

theorem Handles.queues (h : Handles s s') (hw : s.permission.Wf) (hq : s.Queues) : s'.Queues := by
  intro t' ht' hopen hunsent
  cases h with
  | kept same =>
    rw [same.attempt] at ht'
    rw [same.pending, same.reserved]
    exact hq t' ht' hopen hunsent
  | queued slot attempt reserved _ =>
    rw [attempt] at ht'
    obtain ⟨q, -, hpending, -⟩ := hq t' ht' hopen hunsent
    cases slot.symm.trans hpending
  | idled _ unreserved attempt _ =>
    rw [attempt] at ht'
    obtain ⟨-, i, -, -, hreserved, -⟩ := hq t' ht' hopen hunsent
    cases unreserved.symm.trans hreserved
  | launched settled source attempt flight =>
    rw [attempt] at ht'
    obtain ⟨t, hget, rfl⟩ := Option.map_eq_some_iff.1 ht'
    have hterminal := (t.sendStarted_follows _ _).unsettled hopen
    have hnone : t.dispatch = none := by
      by_contra hsome
      unfold ManualOutputAttempt.sendStarted at hunsent
      simp [Option.isNone_iff_eq_none, hsome] at hunsent
    obtain ⟨-, ⟨-, hid⟩ | ⟨hsafe, -⟩⟩ := ManualOutputAttempt.sendStarted_open hopen hnone
    · cases hunsent.symm.trans hid
    · obtain ⟨-, i, -, -, hreserved, hordinary, -⟩ := hq t hget hterminal hnone
      cases hordinary.symm.trans ((source i hreserved).trans hsafe)
  | completed flight attempt =>
    have hidle : s.transportReserved = none := hw.exclusive (show s.snapshot.inFlight.isSome = true by rw [flight]; rfl)
    have hopen₀ : ∃ t, s.snapshot.manualAttempt = some t ∧ t.terminal = false ∧ t.dispatch = none := by
      obtain attempt | attempt := attempt
      · rw [attempt] at ht'
        obtain ⟨t, hget, rfl⟩ := Option.map_eq_some_iff.1 ht'
        obtain ⟨hsame, -⟩ := ManualOutputAttempt.capture_open hopen
        rw [hsame] at hopen hunsent
        exact ⟨t, hget, hopen, hunsent⟩
      · rw [attempt, Option.map_map] at ht'
        obtain ⟨t, hget, rfl⟩ := Option.map_eq_some_iff.1 ht'
        obtain ⟨hfail, hsent⟩ := ManualOutputAttempt.failBeforeSend_open hopen
        dsimp only [Function.comp] at hunsent hfail hsent
        rw [hfail] at hunsent
        simp [hunsent] at hsent
    obtain ⟨t, hget, hterminal, hnone⟩ := hopen₀
    obtain ⟨-, i, -, -, hreserved, -⟩ := hq t hget hterminal hnone
    cases hidle.symm.trans hreserved
  | revoked attempt _ =>
    rw [attempt] at ht'
    obtain ⟨t, hget, rfl⟩ := Option.map_eq_some_iff.1 ht'
    obtain ⟨hsame, hsent⟩ := ManualOutputAttempt.failBeforeSend_open hopen
    rw [hsame] at hunsent
    simp [hunsent] at hsent
  | withdrawn reservation safe attempt _ =>
    rw [attempt] at ht'
    obtain ⟨-, i, -, -, hreserved, hordinary, -⟩ := hq t' ht' hopen hunsent
    obtain rfl := Option.some.inj (reservation.symm.trans hreserved)
    cases safe.symm.trans hordinary
  | @acknowledged id snapshot attempt pending reserved _ =>
    rw [attempt] at ht'
    obtain ⟨t, hget, rfl⟩ := Option.map_eq_some_iff.1 ht'
    have hterminal := (t.capture_follows snapshot id false).unsettled hopen
    have hdispatch : (t.capture snapshot id false).dispatch = t.dispatch := by
      unfold ManualOutputAttempt.capture
      split_ifs <;> rfl
    rw [hdispatch] at hunsent
    rw [(t.capture_follows snapshot id false).requested, (t.capture_follows snapshot id false).id, pending, reserved]
    exact hq t hget hterminal hunsent

/-- The receipt after a call is the one before it, as far as it was settled, and none is dropped. -/
theorem Handles.carries (h : Handles s s') :
    Option.Rel ManualOutputAttempt.Follows s.snapshot.manualAttempt s'.snapshot.manualAttempt := by
  have hmap : ∀ {f : ManualOutputAttempt → ManualOutputAttempt} (o : Option ManualOutputAttempt), (∀ t, ManualOutputAttempt.Follows t (f t)) →
      Option.Rel ManualOutputAttempt.Follows o (o.map f) := by
    intro f o hf
    cases o with
    | none => exact .none
    | some t => exact .some (hf t)
  have hsame : s'.snapshot.manualAttempt = s.snapshot.manualAttempt →
      Option.Rel ManualOutputAttempt.Follows s.snapshot.manualAttempt s'.snapshot.manualAttempt := by
    intro attempt
    rw [attempt]
    have hrefl := hmap s.snapshot.manualAttempt ManualOutputAttempt.Follows.refl
    rwa [Option.map_id'] at hrefl
  cases h with
  | kept same => exact hsame same.attempt
  | queued _ attempt | idled _ _ attempt | withdrawn _ _ attempt => exact hsame attempt
  | launched _ _ attempt =>
    rw [attempt]
    exact hmap _ fun t => t.sendStarted_follows _ _
  | completed _ attempt =>
    obtain attempt | attempt := attempt
    · rw [attempt]
      exact hmap _ fun t => t.capture_follows _ _ _
    · rw [attempt, Option.map_map]
      exact hmap _ fun t => (t.capture_follows _ _ _).trans (ManualOutputAttempt.failBeforeSend_follows _)
  | revoked attempt =>
    rw [attempt]
    exact hmap _ fun t => t.failBeforeSend_follows
  | acknowledged attempt =>
    rw [attempt]
    exact hmap _ fun t => t.capture_follows _ _ _

/-! ### Every call -/

theorem SameReceipt.refl (s : OutputAuthority) : SameReceipt s s := ⟨rfl, rfl, rfl, rfl⟩

theorem handles_refl (s : OutputAuthority) : Handles s s := .kept (.refl s)

/-- An exhausted epoch clears what is pending, and nothing is where it can be met. -/
theorem bumpEpoch_receipt (hidle : s.pending = none) : SameReceipt s s.bumpEpoch.2 := by
  unfold bumpEpoch
  cases checkedAdd s.snapshot.epoch 1 with
  | none => exact ⟨rfl, hidle.symm, rfl, rfl⟩
  | some epoch => exact ⟨rfl, rfl, rfl, rfl⟩

/-- What is not armed has nothing pending. -/
theorem unarmed_idle (hw : s.permission.Wf) (h : s.snapshot.state.armed = false) : s.pending = none :=
  hw.unqueued (hw.unarmed h)

theorem bind_handles (hw : s.permission.Wf) (p : SafeProfile) : Handles s (s.bind p).2 := by
  unfold OutputAuthority.bind
  by_cases h : (s.snapshot.state ≠ .unverified ∧ s.snapshot.state ≠ .disarmed) ∨ s.snapshot.inFlight.isSome
  · rw [if_pos h]
    exact handles_refl s
  rw [if_neg h]
  have hidle : s.pending = none := by
    refine unarmed_idle hw ?_
    simp only [not_or, not_and_or, not_not] at h
    obtain ⟨hstate | hstate, -⟩ := h <;> rw [hstate] <;> rfl
  cases p.validate with
  | error e => exact handles_refl s
  | ok u =>
    cases s.limits.validate (.float p.min) with
    | error e => exact handles_refl s
    | ok u =>
      cases s.limits.validate (.float p.max) with
      | error e => exact handles_refl s
      | ok u =>
        have hsame := bumpEpoch_receipt hidle
        rcases hb : s.bumpEpoch with ⟨_ | _, b⟩ <;> rw [hb] at hsame
        · exact .kept hsame
        · exact .kept ⟨hsame.attempt, hidle.symm, hsame.reserved, hsame.flight⟩

theorem acquire_handles (hw : s.permission.Wf) (owner : OutputOwner) (lifetime now : ℕ) :
    Handles s (s.acquire owner lifetime now).2 := by
  unfold OutputAuthority.acquire
  by_cases h : s.snapshot.state ≠ .disarmed ∨ s.snapshot.safeConfirmed = false
  · rw [if_pos h]
    exact handles_refl s
  rw [if_neg h]
  have hidle : s.pending = none := by
    refine unarmed_idle hw ?_
    simp only [not_or, not_not] at h
    rw [h.1]
    rfl
  cases s.profile with
  | error e => exact handles_refl s
  | ok p =>
    dsimp only
    split_ifs
    · exact handles_refl s
    · cases durationAdd now lifetime with
      | none => exact handles_refl s
      | some expires =>
        have hsame := bumpEpoch_receipt hidle
        rcases hb : s.bumpEpoch with ⟨_ | _, b⟩ <;> rw [hb] at hsame
        · exact .kept hsame
        · exact .kept ⟨hsame.attempt, hsame.pending, hsame.reserved, hsame.flight⟩

theorem renew_handles (l : OutputLease) (lifetime now : ℕ) : Handles s (s.renew l lifetime now).2 := by
  unfold renew
  cases s.checkLease l now with
  | error e => exact handles_refl s
  | ok u =>
    dsimp only
    split_ifs
    · exact handles_refl s
    · exact handles_refl s
    · cases s.profile with
      | error e => exact handles_refl s
      | ok p =>
        dsimp only
        split_ifs
        · exact handles_refl s
        · cases durationAdd now lifetime with
          | none => exact handles_refl s
          | some expires =>
            dsimp only
            split_ifs
            · exact handles_refl s
            · exact .kept ⟨rfl, rfl, rfl, rfl⟩

theorem propose_handles (q : OutputProposal) (now : ℕ) : Handles s (s.propose q now).2 := by
  unfold OutputAuthority.propose
  cases s.checkLease q.lease now with
  | error e => exact handles_refl s
  | ok u =>
    dsimp only
    by_cases hu : (q.unit != s.unit) = true
    · rw [if_pos hu]
      exact handles_refl s
    rw [if_neg hu]
    cases s.profile with
    | error e => exact handles_refl s
    | ok p =>
      dsimp only
      cases (ValueSpec.float p.min p.max).validate q.value with
      | error e => exact handles_refl s
      | ok u =>
        dsimp only
        by_cases ht : q.ttl = 0 ∨ q.ttl > p.maxProposalTtl
        · rw [if_pos ht]
          exact handles_refl s
        rw [if_neg ht]
        cases durationAdd now q.ttl with
        | none => exact handles_refl s
        | some deadline =>
          dsimp only
          by_cases hs : s.pending.isSome
          · rw [if_pos hs]
            exact handles_refl s
          rw [if_neg hs]
          cases q.value with
          | float v => exact .queued (Option.not_isSome_iff_eq_none.1 hs) rfl rfl rfl
          | _ => exact handles_refl s

theorem startDispatch_handles {b : OutputAuthority} {d : Dispatch} {following now : ℕ} (settled : s.snapshot.inFlight = none)
    (source : ∀ i, s.transportReserved = some i → i.safe = d.safe)
    (attempt : b.snapshot.manualAttempt = s.snapshot.manualAttempt) : Handles s (b.startDispatch d following now) := by
  unfold startDispatch
  refine @Handles.launched _ _ d (some { value := d.value, observedAt := now }) settled source ?_ ?_
  · rw [manualSendStarted_attempt, ← attempt]
  · exact congrArg Permission.inFlight (permission_manualSendStarted _ d)

theorem begin_handles (now : ℕ) : Handles s (s.begin now).2 := by
  unfold OutputAuthority.begin
  dsimp only
  by_cases hbusy : s.snapshot.inFlight.isSome ∨ s.transportReserved.isSome
  · rw [if_pos hbusy]
    exact handles_refl s
  rw [if_neg hbusy]
  simp only [not_or, Option.not_isSome_iff_eq_none] at hbusy
  obtain ⟨hsettled, hunreserved⟩ := hbusy
  have hsource : ∀ {d : Dispatch} i, s.transportReserved = some i → i.safe = d.safe := fun i hi => by
    cases hunreserved.symm.trans hi
  have hclear : Handles s s.clearPending := .idled hsettled hunreserved rfl hsettled
  by_cases hobliged : s.safeObligationPending = true
  · rw [if_pos hobliged]
    split_ifs
    · exact handles_refl s
    · cases s.profile with
      | error e => exact handles_refl s
      | ok p =>
        cases checkedAdd s.nextDispatch 1 with
        | none => exact handles_refl s
        | some following => exact startDispatch_handles hsettled hsource rfl
  · rw [if_neg hobliged]
    cases s.pending with
    | none => exact handles_refl s
    | some candidate =>
      dsimp only
      cases s.checkLease candidate.lease now with
      | error e => exact hclear
      | ok u =>
        dsimp only
        split_ifs
        · exact hclear
        · cases checkedAdd s.nextDispatch 1 with
          | none => exact handles_refl s
          | some following => exact startDispatch_handles hsettled hsource rfl

theorem requestSafe_revokes (s : OutputAuthority) (fault : Bool) :
    (s.requestSafe fault).2.snapshot.manualAttempt = s.snapshot.manualAttempt.map ManualOutputAttempt.failBeforeSend ∧
      (s.requestSafe fault).2.snapshot.inFlight = s.snapshot.inFlight := by
  have hflight : s.failManualBeforeSend.snapshot.inFlight = s.snapshot.inFlight :=
    congrArg Permission.inFlight s.permission_failManual
  rw [← failManual_attempt]
  unfold requestSafe bumpEpoch
  cases checkedAdd s.failManualBeforeSend.snapshot.epoch 1 with
  | none => exact ⟨rfl, hflight⟩
  | some epoch => exact ⟨rfl, hflight⟩

theorem requestSafe_handles (fault : Bool) : Handles s (s.requestSafe fault).2 :=
  .revoked (s.requestSafe_revokes fault).1 (s.requestSafe_revokes fault).2

/-- A safe request behind a command. -/
theorem requestSafe_command_handles (fault : Bool) : Handles s (match s.requestSafe fault with
    | (.error error, s) => ((.error error, s) : Outcome OutputResult)
    | (.ok _, s) => (.ok .updated, s)).2 := by
  have hsafe : Handles s (s.requestSafe fault).2 := requestSafe_handles fault
  rcases hrun : s.requestSafe fault with ⟨_ | _, b⟩ <;> rw [hrun] at hsafe <;> exact hsafe

theorem complete_handles (id : DispatchId) (outcome : DispatchOutcome) (now : ℕ) :
    Handles s (s.complete id outcome now).2 := by
  unfold OutputAuthority.complete
  cases hflight : s.snapshot.inFlight with
  | none => exact handles_refl s
  | some d =>
    dsimp only
    by_cases hid : d.id ≠ id
    · rw [if_pos hid]
      exact handles_refl s
    rw [if_neg hid]
    generalize hb : OutputAuthority.captureManualDelivery _ d.id true = b
    have hattempt : ∃ snapshot, b.snapshot.manualAttempt =
        s.snapshot.manualAttempt.map fun t => t.capture snapshot d.id true := by
      rw [← hb, captureManual_attempt]
      exact ⟨_, rfl⟩
    obtain ⟨snapshot, hattempt⟩ := hattempt
    by_cases houtcome : outcome.unsettled = true
    · rw [if_pos houtcome]
      have hsafe := (b.requestSafe_revokes true).1
      rw [hattempt] at hsafe
      rcases hrun : b.requestSafe true with ⟨_ | _, c⟩ <;> rw [hrun] at hsafe
      · exact .completed hflight (.inr hsafe)
      · dsimp only
        split_ifs
        · exact .completed hflight (.inr hsafe)
        · exact .completed hflight (.inr hsafe)
    rw [if_neg houtcome]
    by_cases hcurrent : d.safe = true ∧ d.epoch = b.snapshot.epoch
    · rw [if_pos hcurrent]
      by_cases hverified : outcome = .readbackVerified
      · rw [if_pos hverified]
        exact .completed hflight (.inl hattempt)
      · rw [if_neg hverified]
        cases b.profile with
        | error e => exact .completed hflight (.inl hattempt)
        | ok p => exact .completed hflight (.inl hattempt)
    · rw [if_neg hcurrent]
      exact .completed hflight (.inl hattempt)

theorem reserve_handles (now queueDeadline : ℕ) (attemptId : Option ℕ) (generation revision : ℕ) :
    Handles s (s.reserveTransport now queueDeadline attemptId generation revision).2 := by
  unfold reserveTransport
  dsimp only
  by_cases hbusy : s.snapshot.inFlight.isSome ∨ s.transportReserved.isSome
  · rw [if_pos hbusy]
    exact handles_refl s
  rw [if_neg hbusy]
  simp only [not_or, Option.not_isSome_iff_eq_none] at hbusy
  obtain ⟨hsettled, hunreserved⟩ := hbusy
  by_cases hdue : now ≥ queueDeadline ∨ generation = 0 ∨ revision = 0
  · rw [if_pos hdue]
    exact handles_refl s
  rw [if_neg hdue]
  by_cases hobliged : s.safeObligationPending = true
  · rw [if_pos hobliged]
    split_ifs
    · exact handles_refl s
    · cases s.profile with
      | error e => exact handles_refl s
      | ok p => exact .idled hsettled hunreserved rfl hsettled
  · rw [if_neg hobliged]
    cases s.pending with
    | none => exact handles_refl s
    | some pending =>
      dsimp only
      cases s.checkLease pending.lease now with
      | error e => exact handles_refl s
      | ok u =>
        dsimp only
        split_ifs
        · exact .idled hsettled hunreserved rfl hsettled
        · exact .idled hsettled hunreserved rfl hsettled

theorem beginTransport_handles (i : OutputIntent) (now : ℕ) : Handles s (s.beginTransport i now).2 := by
  unfold beginTransport
  cases hvalid : s.validateTransport i now with
  | error e => exact handles_refl s
  | ok u =>
    cases checkedAdd s.nextDispatch 1 with
    | none => exact handles_refl s
    | some following =>
      obtain ⟨j, -, hj, hsame, -, -, hsettled, -⟩ := validateTransport_ok hvalid
      refine startDispatch_handles hsettled (fun j' hj' => ?_) ?_
      · obtain rfl := Option.some.inj (hj.symm.trans hj')
        obtain ⟨-, -, -, -, -, -, -, -, hsafe, -, -⟩ := (OutputIntent.beq_iff j i).1 hsame
        exact hsafe
      · dsimp only
        split_ifs <;> rfl

theorem abort_handles (i : OutputIntent) : Handles s (s.abortTransport i) := by
  unfold abortTransport
  by_cases hreserved : (s.transportReserved == some i) = true
  · rw [if_pos hreserved]
    cases hj : s.transportReserved with
    | none => simp [hj] at hreserved
    | some j =>
      have hsame : (j == i) = true := by simpa [hj] using hreserved
      obtain ⟨-, -, -, -, -, -, -, -, hsafe, -, -⟩ := (OutputIntent.beq_iff j i).1 hsame
      by_cases hi : i.safe = true
      · rw [if_pos hi]
        exact .withdrawn hj (hsafe.trans hi) rfl rfl
      · rw [if_neg hi]
        refine .revoked (failManual_attempt _) ?_
        exact congrArg Permission.inFlight (permission_failManual _)
  · rw [if_neg hreserved]
    exact handles_refl s

/-- What follows a call and leaves the receipt alone. -/
theorem Handles.then {b c : OutputAuthority} (h : Handles s b) (hsame : SameReceipt b c) : Handles s c := by
  obtain ⟨hattempt, hpending, hreserved, hflight⟩ := hsame
  cases h with
  | kept same =>
    exact .kept ⟨hattempt.trans same.attempt, hpending.trans same.pending, hreserved.trans same.reserved,
      hflight.trans same.flight⟩
  | queued slot attempt reserved flight =>
    exact .queued slot (hattempt.trans attempt) (hreserved.trans reserved) (hflight.trans flight)
  | idled settled unreserved attempt flight =>
    exact .idled settled unreserved (hattempt.trans attempt) (hflight.trans flight)
  | launched settled source attempt flight =>
    exact .launched settled source (hattempt.trans attempt) (hflight.trans flight)
  | completed flight attempt => exact .completed flight (attempt.imp hattempt.trans hattempt.trans)
  | revoked attempt flight => exact .revoked (hattempt.trans attempt) (hflight.trans flight)
  | withdrawn reservation safe attempt flight =>
    exact .withdrawn reservation safe (hattempt.trans attempt) (hflight.trans flight)
  | acknowledged attempt pending reserved flight =>
    exact .acknowledged (hattempt.trans attempt) (hpending.trans pending) (hreserved.trans reserved)
      (hflight.trans flight)

/-- A call on an authority whose receipt is the same. -/
theorem SameReceipt.handles {b c : OutputAuthority} (hsame : SameReceipt s b) (h : Handles b c) : Handles s c := by
  obtain ⟨hattempt, hpending, hreserved, hflight⟩ := hsame
  cases h with
  | kept same =>
    exact .kept ⟨same.attempt.trans hattempt, same.pending.trans hpending, same.reserved.trans hreserved,
      same.flight.trans hflight⟩
  | queued slot attempt reserved flight =>
    exact .queued (hpending ▸ slot) (attempt.trans hattempt) (reserved.trans hreserved) (flight.trans hflight)
  | idled settled unreserved attempt flight =>
    exact .idled (hflight ▸ settled) (hreserved ▸ unreserved) (attempt.trans hattempt) flight
  | launched settled source attempt flight =>
    exact .launched (hflight ▸ settled) (hreserved ▸ source) (hattempt ▸ attempt) flight
  | completed flight attempt => exact .completed (hflight ▸ flight) (hattempt ▸ attempt)
  | revoked attempt flight => exact .revoked (hattempt ▸ attempt) (flight.trans hflight)
  | withdrawn reservation safe attempt flight =>
    exact .withdrawn (hreserved ▸ reservation) safe (attempt.trans hattempt) (flight.trans hflight)
  | acknowledged attempt pending reserved flight =>
    exact .acknowledged (hattempt ▸ attempt) (pending.trans hpending) (reserved.trans hreserved) (flight.trans hflight)

theorem tick_handles (now : ℕ) : Handles s (s.tick now).2 := by
  unfold tick
  cases s.snapshot.lease with
  | none => exact handles_refl s
  | some lease =>
    dsimp only
    split_ifs
    · exact requestSafe_handles false
    · exact handles_refl s

theorem command_handles (hw : s.permission.Wf) (command : OutputCommand) (now : ℕ) :
    Handles s (s.command command now).2 := by
  cases command with
  | bindProfile profile => exact bind_handles hw profile
  | acquire owner lifetime => exact acquire_handles hw owner lifetime now
  | propose proposal => exact propose_handles proposal now
  | beginDispatch => exact begin_handles now
  | complete id outcome => exact complete_handles id outcome now
  | tick => exact handles_refl s
  | requestSafe =>
    dsimp only [OutputAuthority.command]
    cases s.profile with
    | error e => exact handles_refl s
    | ok p => exact requestSafe_command_handles false
  | trip =>
    dsimp only [OutputAuthority.command]
    cases s.profile with
    | error e => exact handles_refl s
    | ok p => exact requestSafe_command_handles true
  | release lease =>
    dsimp only [OutputAuthority.command]
    cases s.checkLease lease now with
    | error e => exact handles_refl s
    | ok u => exact requestSafe_command_handles false
  | renewManual lease lifetime =>
    dsimp only [OutputAuthority.command]
    split_ifs
    · exact handles_refl s
    · have hrenew : Handles s (s.renew lease lifetime now).2 := renew_handles lease lifetime now
      rcases hrun : s.renew lease lifetime now with ⟨_ | _, b⟩ <;> rw [hrun] at hrenew <;> exact hrenew
  | acknowledgeFault =>
    dsimp only [OutputAuthority.command]
    split_ifs
    · exact handles_refl s
    · exact .kept ⟨rfl, rfl, rfl, rfl⟩

theorem uncertain_handles (id : DispatchId) : Handles s (s.transportUncertain id).2 := by
  unfold transportUncertain
  cases s.snapshot.inFlight.filter (fun dispatch => dispatch.id == id) with
  | none => exact handles_refl s
  | some d =>
    have hsafe : Handles s (s.requestSafe true).2 := requestSafe_handles true
    rcases hrun : s.requestSafe true with ⟨_ | _, b⟩ <;> rw [hrun] at hsafe
    · exact hsafe
    · dsimp only
      split_ifs
      · exact hsafe.then ⟨rfl, rfl, rfl, rfl⟩
      · exact hsafe

theorem acknowledge_handles (id : DispatchId) (now : ℕ) : Handles s (s.acknowledgeTransport id now).2 := by
  unfold acknowledgeTransport
  cases s.snapshot.inFlight with
  | none => exact handles_refl s
  | some d =>
    dsimp only
    by_cases hid : d.id ≠ id
    · rw [if_pos hid]
      exact handles_refl s
    · rw [if_neg hid]
      have hpermission := permission_captureManual { s with snapshot := { s.snapshot with
        acknowledged := some { value := d.value, observedAt := now }, outcome := some .acknowledged } } id false
      exact .acknowledged (captureManual_attempt _ id false) (congrArg Permission.pending hpermission)
        (congrArg Permission.reserved hpermission) (congrArg Permission.inFlight hpermission)

theorem readback_handles {b : OutputAuthority} (id : DispatchId) (outcome : DispatchOutcome) (isMatch : Bool) (now : ℕ)
    (hsame : SameReceipt s b) :
    Handles s (match b.complete id outcome now with
      | (.error error, s) => ((.error error, s) : Outcome Bool)
      | (.ok _, s) => (.ok isMatch, s)).2 := by
  have hrest : Handles s (b.complete id outcome now).2 := hsame.handles (complete_handles id outcome now)
  rcases hrun : b.complete id outcome now with ⟨_ | _, c⟩ <;> rw [hrun] at hrest <;> exact hrest

theorem readbackExact_handles (id : DispatchId) (reported : F64) (isMatch : Bool) (now : ℕ) :
    Handles s (s.completeTransportReadbackExact id reported isMatch now).2 := by
  unfold completeTransportReadbackExact
  cases s.snapshot.inFlight with
  | none => exact handles_refl s
  | some d =>
    dsimp only
    by_cases hid : d.id ≠ id ∨ reported.isFinite = false
    · rw [if_pos hid]
      exact handles_refl s
    rw [if_neg hid]
    cases isMatch with
    | true => exact readback_handles id _ true now ⟨rfl, rfl, rfl, rfl⟩
    | false => exact readback_handles id _ false now ⟨rfl, rfl, rfl, rfl⟩

/-- An accepted reservation changes nothing else. -/
theorem reserve_ok {now queueDeadline : ℕ} {attemptId : Option ℕ} {generation revision : ℕ} {i : OutputIntent}
    (h : (s.reserveTransport now queueDeadline attemptId generation revision).1 = .ok i) :
    (s.reserveTransport now queueDeadline attemptId generation revision).2 = { s with transportReserved := some i } ∧
      i.attemptId = attemptId ∧ (s.safeObligationPending = false → i.safe = false) := by
  unfold reserveTransport at h ⊢
  dsimp only at h ⊢
  split_ifs at h ⊢ with hbusy hdue hobliged
  · cases hp : s.profile with
    | error e => simp [hp] at h
    | ok p =>
      simp only [hp] at h ⊢
      obtain rfl := Except.ok.inj h
      exact ⟨rfl, rfl, fun hfree => by simp [hfree] at hobliged⟩
  · cases hpending : s.pending with
    | none => simp [hpending] at h
    | some pending =>
      simp only [hpending] at h ⊢
      cases hlease : s.checkLease pending.lease now with
      | error e => simp [hlease] at h
      | ok u =>
        simp only [hlease] at h ⊢
        split_ifs at h ⊢ with hexpired
        obtain rfl := Except.ok.inj h
        exact ⟨rfl, rfl, fun _ => rfl⟩

/-- A started send is written into the receipt, unless it is safe. -/
theorem begin_started {now : ℕ} {d : Dispatch} (h : (s.begin now).1 = .ok (.dispatched d)) :
    (s.safeObligationPending = false → d.safe = false) ∧
      ∃ sent, (s.begin now).2.snapshot.manualAttempt = s.snapshot.manualAttempt.map fun t => t.sendStarted d sent := by
  unfold OutputAuthority.begin at h ⊢
  dsimp only at h ⊢
  have hstart : ∀ {b : OutputAuthority} {d' : Dispatch} {following : ℕ}, b.snapshot.manualAttempt = s.snapshot.manualAttempt →
      d' = d → ∃ sent, (b.startDispatch d' following now).snapshot.manualAttempt =
        s.snapshot.manualAttempt.map fun t => t.sendStarted d sent := by
    rintro b d' following hb rfl
    unfold startDispatch
    exact ⟨_, by rw [manualSendStarted_attempt, ← hb]⟩
  split_ifs at h ⊢ with hbusy hobliged hblocked
  · cases hp : s.profile with
    | error e => simp [hp] at h
    | ok p =>
      simp only [hp] at h ⊢
      cases hnext : checkedAdd s.nextDispatch 1 with
      | none => simp [hnext] at h
      | some following =>
        simp only [hnext] at h ⊢
        exact ⟨fun hfree => by simp [hfree] at hobliged, hstart rfl (OutputResult.dispatched.inj (Except.ok.inj h))⟩
  · cases hpending : s.pending with
    | none => simp [hpending] at h
    | some pending =>
      simp only [hpending] at h ⊢
      cases hlease : s.checkLease pending.lease now with
      | error e => simp [hlease] at h
      | ok u =>
        simp only [hlease] at h ⊢
        split_ifs at h ⊢ with hexpired
        cases hnext : checkedAdd s.nextDispatch 1 with
        | none => simp [hnext] at h
        | some following =>
          simp only [hnext] at h ⊢
          obtain rfl := OutputResult.dispatched.inj (Except.ok.inj h)
          exact ⟨fun _ => rfl, hstart rfl rfl⟩

/-- Every call but the start of a manual write. -/
theorem step_handles (hw : s.permission.Wf) (call : AuthorityCall)
    (hop : ∀ id virtualSimulation, call.op ≠ .trackManualAttempt id virtualSimulation) : Handles s (s.step call) := by
  obtain ⟨op, now⟩ := call
  cases op with
  | command command => exact command_handles hw command now
  | tick => exact tick_handles now
  | renewNative lease lifetime =>
    show Handles s (s.renewNative lease lifetime now).2
    unfold renewNative
    split_ifs
    · exact handles_refl s
    · exact renew_handles lease lifetime now
  | reserveTransport queueDeadline attemptId generation revision =>
    exact reserve_handles now queueDeadline attemptId generation revision
  | validateTransport intent => exact handles_refl s
  | beginTransport intent => exact beginTransport_handles intent now
  | abortTransport intent => exact abort_handles intent
  | failTransportBeforeSend intent =>
    show Handles s (s.failTransportBeforeSend intent)
    unfold failTransportBeforeSend
    split_ifs
    · exact (abort_handles intent).then ⟨rfl, rfl, rfl, rfl⟩
    · exact handles_refl s
  | transportUncertain id => exact uncertain_handles id
  | acknowledgeTransport id => exact acknowledge_handles id now
  | completeTransport id outcome =>
    have hcomplete : Handles s (s.complete id outcome now).2 := complete_handles id outcome now
    show Handles s (s.completeTransport id outcome now).2
    unfold completeTransport
    rcases hrun : s.complete id outcome now with ⟨_ | _, b⟩ <;> rw [hrun] at hcomplete <;> exact hcomplete
  | completeTransportReadback id reported =>
    show Handles s (s.completeTransportReadback id reported now).2
    unfold completeTransportReadback
    cases s.snapshot.inFlight with
    | none => exact handles_refl s
    | some d => exact readbackExact_handles id reported _ now
  | completeTransportReadbackExact id reported isMatch => exact readbackExact_handles id reported isMatch now
  | failTransportReadback id =>
    show Handles s (s.failTransportReadback id now).2
    unfold failTransportReadback
    generalize hb : ({ s with snapshot := { s.snapshot with readbackFailure := some .unavailable } } : OutputAuthority) = b
    have hsame : SameReceipt s b := by
      rw [← hb]
      exact ⟨rfl, rfl, rfl, rfl⟩
    have hcomplete : Handles s (b.complete id .ambiguous now).2 := hsame.handles (complete_handles id .ambiguous now)
    rcases hrun : b.complete id .ambiguous now with ⟨_ | _, c⟩ <;> rw [hrun] at hcomplete <;> exact hcomplete
  | trackManualAttempt id virtualSimulation => exact absurd rfl (hop id virtualSimulation)
  | failManualBeforeSend =>
    exact .revoked s.failManual_attempt (congrArg Permission.inFlight s.permission_failManual)

end OutputAuthority
end LabRuntime
