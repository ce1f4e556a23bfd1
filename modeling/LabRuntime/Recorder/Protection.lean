import LabRuntime.Recorder.Credit

/-! Protected Reference credit. Ordinary traffic leaves it free, and what has been reserved, or found
to fit, is not refused for want of credit later. -/

namespace LabRuntime.Recorder

variable {layout : FactLayout} {s s' : System layout}

/-! ### Room that stays -/

namespace RecorderWorker

/-- Credit beside which the charge is still funded fits. -/
theorem fits_of_funded {o : RecorderWorker layout} {records bytes : ℕ} (hpos : 0 < records)
    (h : (o.charge ⟨1, records, bytes⟩).Funded) : o.Fits records bytes := by
  have hlimited := Credit.contains_iff.1 h.limited
  simp only [charge, RecorderLimits.credit, Credit.add_groups, Credit.add_records, Credit.add_bytes] at hlimited
  by_cases hlimits : o.limits = .default
  · obtain ⟨free, hprotected, hguarded⟩ := h.guarded hlimits
    have hprotected : protectedCredit layout = o.referenceCredit + free := hprotected
    rw [Credit.contains_iff] at hguarded
    simp only [charge, RecorderLimits.credit, Credit.add_groups, Credit.add_records, Credit.add_bytes] at hguarded
    refine ⟨free, ?_, ?_⟩
    · rw [protectedFree, if_pos hlimits, hprotected, Credit.add_delta]
    · simp only [fitsBeside, Bool.and_eq_true, decide_eq_true_eq]
      omega
  · refine ⟨0, by rw [protectedFree, if_neg hlimits], ?_⟩
    simp only [fitsBeside, Bool.and_eq_true, decide_eq_true_eq, Credit.zero_groups, Credit.zero_records, Credit.zero_bytes]
    omega

/-- A smaller credit is funded too. -/
theorem funded_charge_mono {o : RecorderWorker layout} {credit larger : Credit} (h : (o.charge larger).Funded)
    (hle : larger.contains credit = true) : (o.charge credit).Funded := by
  have hle := Credit.contains_iff.1 hle
  have hsplit : o.charged + larger =
      ⟨larger.groups - credit.groups, larger.records - credit.records, larger.bytes - credit.bytes⟩ +
        (o.charged + credit) := by
    ext <;> simp only [Credit.add_groups, Credit.add_records, Credit.add_bytes] <;> omega
  have hreturns : (o.charge larger).Returns (o.charge credit) :=
    ⟨rfl, _, 0, hsplit, (zero_add _).symm, by simp [Credit.contains_iff]⟩
  exact hreturns.funded h

end RecorderWorker

/-- Quiet moves leave the room there is. -/
theorem Micro.room {spare : Credit} (h : Micro Quiet s s') (hs : Credited s) (hroom : (s.owner.charge spare).Funded) :
    (s'.owner.charge spare).Funded := by
  obtain ⟨done, rest, haccounts⟩ := hs.accounts
  cases h with
  | sent message o offer granted receiving room =>
    cases message <;> cases granted
    cases offer
    exact hroom.of_same rfl rfl rfl
  | reserved o h granted => cases granted
  | changed o h => exact ((h.returns haccounts.charged_contains).charge spare).funded hroom
  | adopted receipt charged referenceCredit shown h => exact (h.returns.charge spare).funded hroom
  | failed message cause granted | gapFailed gap fresh live valid granted => exact hroom.of_same rfl rfl rfl
  | worker | scheduled | refused | marked | slots | panicked => exact hroom

theorem Path.room {spare : Credit} (h : Path Quiet s s') (hs : Credited s) (hroom : (s.owner.charge spare).Funded) :
    (s'.owner.charge spare).Funded ∧ Credited s' := by
  induction h with
  | refl => exact ⟨hroom, hs⟩
  | tail _ step ih => exact ⟨step.room ih.2 ih.1, step.credited ih.2⟩

/-! ### How a poll stops -/

/-- An error that is not an answer of the code. -/
def Panics : Abort → Prop := (· = .panicked)

theorem expect_stops {α : Type} (value : Option α) : Procedure.Stops Panics (expect value : Step layout α) := by
  cases value with
  | none => exact .bind (.modify _) fun _ => .stop rfl
  | some a => exact .pure a

variable {P : Abort → Prop}

theorem tryLock_stops : Procedure.Stops P (tryLock : Step layout Bool) :=
  .bind (.modify _) fun _ => .bind .get fun _ => .bind (fun _ _ => nofun) fun _ => .pure _

theorem fail_stops (message : StorageError) : Procedure.Stops P (fail message : Step layout Unit) := by
  refine .bind (.modify _) fun _ => .bind tryLock_stops fun taken => ?_
  cases taken with
  | true => exact .modify _
  | false => exact .pure _

theorem transfer_stops (message : Message) (accepted : RecorderWorker layout → RecorderWorker layout) :
    Procedure.Stops P (transfer message accepted) := by
  refine .bind (.modify _) fun _ => .bind .get fun s => ?_
  split_ifs
  · exact .pure _
  · exact .bind (fun _ _ => nofun) fun _ => .pure _
  · exact .bind (fun _ _ => nofun) fun _ => .pure _

theorem drainHistoryCancellations_stops : Procedure.Stops P (drainHistoryCancellations : Step layout Unit) := by
  refine .bind (.bind .get fun _ => .pure _) fun o => ?_
  split_ifs
  · exact .pure _
  · refine .bind tryLock_stops fun active => ?_
    split_ifs
    · refine .bind tryLock_stops fun history => ?_
      split_ifs
      · refine .bind tryLock_stops fun runs => ?_
        split_ifs
        · exact .modify _
        · exact .pure _
      · exact .pure _
    · exact .pure _

theorem cloneReceipt_stops : Procedure.Stops P (cloneReceipt : Step layout (Option Receipt)) := by
  refine .bind tryLock_stops fun taken => ?_
  cases taken with
  | true => exact .bind .get fun _ => .pure _
  | false => exact .pure _

theorem owner_stops : Procedure.Stops P (owner : Step layout (RecorderWorker layout)) := .bind .get fun _ => .pure _

theorem releaseReceipt_stops (receipt : Receipt) : Procedure.Stops Panics (releaseReceipt receipt : Step layout Unit) := by
  refine .bind owner_stops fun o => ?_
  cases receipt.released.delta o.seenReleased with
  | none => exact fail_stops _
  | some total =>
    cases receipt.referenceReleased.delta o.seenReferenceReleased with
    | none => exact fail_stops _
    | some reference =>
      refine .bind (expect_stops _) fun ordinaryCredit => ?_
      cases o.charged.delta total with
      | none => exact fail_stops _
      | some charged =>
        cases total.delta reference with
        | none => exact fail_stops _
        | some ordinary =>
          refine .bind (.bind owner_stops fun o => expect_stops _) fun submitted => ?_
          split_ifs
          · exact .bind (expect_stops _) fun _ => .modify _
          · exact fail_stops _

theorem applyReceipt_stops (receipt : Receipt) : Procedure.Stops Panics (applyReceipt receipt : Step layout Unit) := by
  refine .bind owner_stops fun o => ?_
  split_ifs
  · exact .pure _
  · exact fail_stops _
  · exact fail_stops _
  · exact .pure _
  · exact releaseReceipt_stops receipt

theorem reconcileReceipt_stops (fresh : Option Receipt) :
    Procedure.Stops Panics (reconcileReceipt fresh : Step layout RecordingStatus) := by
  have hlast : ∀ workerClosed, Procedure.Stops Panics (do
      update fun o => { o.showOutstanding with cached := { o.showOutstanding.cached with workerClosed } }
      return (← owner).cached : Step layout RecordingStatus) :=
    fun _ => .bind (.modify _) fun _ => .bind owner_stops fun _ => .pure _
  have hobserve : Procedure.Stops Panics (observeWorker : Step layout Bool) := by
    refine .bind (.modify _) fun _ => .bind .get fun s => .bind (.modify _) fun _ => .bind .get fun s' => ?_
    dsimp only
    split_ifs
    · exact .bind (fail_stops _) fun _ => .pure _
    · exact .pure _
  have hread : Procedure.Stops Panics (readFinalReceipt : Step layout Unit) := by
    refine .bind cloneReceipt_stops fun receipt => ?_
    cases receipt with
    | none => exact .pure _
    | some receipt =>
      refine .bind (applyReceipt_stops receipt) fun _ => .bind owner_stops fun o => ?_
      split_ifs
      · exact fail_stops _
      · exact .pure _
  refine .bind ?_ fun _ => .bind hobserve fun workerClosed => .bind owner_stops fun o => ?_
  · cases fresh with
    | none => exact .pure _
    | some receipt => exact applyReceipt_stops receipt
  · split_ifs
    · exact .bind hread fun _ => hlast workerClosed
    · exact hlast workerClosed

theorem schedulePeriodic_stops : Procedure.Stops P (schedulePeriodic : Step layout Unit) := by
  refine .bind owner_stops fun o => ?_
  split_ifs
  · exact .pure _
  · refine .bind (.bind .get fun _ => .bind (fun _ _ => nofun) fun _ => .pure _) fun time => ?_
    split_ifs
    · exact .pure _
    · cases o.plannedRange 1 with
      | none => exact fail_stops _
      | some range => exact .bind (transfer_stops _ _) fun _ => .pure _

theorem poll_stops : Procedure.Stops Panics (poll : Step layout RecordingStatus) :=
  .bind drainHistoryCancellations_stops fun _ => .bind cloneReceipt_stops fun fresh =>
    .bind (reconcileReceipt_stops fresh) fun _ => .bind schedulePeriodic_stops fun _ => .pure _

theorem failWithGap_stops (gap : RecorderGap) : Procedure.Stops P (failWithGap gap : Step layout Unit) := by
  refine .bind owner_stops fun o => ?_
  split_ifs
  · exact .pure _
  · refine .bind (.modify _) fun _ => .bind (fail_stops _) fun _ => .bind owner_stops fun o => ?_
    cases o.plannedRange 1 with
    | none => exact .pure _
    | some range => exact .bind (transfer_stops _ _) fun _ => .pure _
  · exact fail_stops _

theorem plan_stops (count : ℕ) (h : P (.rejected "record identity exhausted")) :
    Procedure.Stops P (plan count : Step layout (ℕ × ℕ)) := by
  refine .bind owner_stops fun o => ?_
  cases o.plannedRange count with
  | none => exact .stop h
  | some range => exact .pure _

theorem sendControl_stops (message : Message) (accepted : RecorderWorker layout → RecorderWorker layout)
    (h : P (.rejected "recorder lifecycle slot unavailable")) : Procedure.Stops P (sendControl message accepted) := by
  refine .bind (transfer_stops _ _) fun outcome => ?_
  cases outcome with
  | sent => exact .pure _
  | full => exact .bind (fail_stops _) fun _ => .stop h
  | disconnected => exact .bind (fail_stops _) fun _ => .stop h

/-! ### Conversions -/

/-- Not a refusal for want of credit. -/
def Admits (e : Abort) : Prop := e ≠ .rejected "recorder ingress capacity exhausted"

/-- Where it fits, the check of the capacity says so. -/
theorem capacity_admits {α : Type} {records bytes : ℕ} {f : Bool → Step layout α} (hfits : s.owner.Fits records bytes)
    (hf : ∀ e, ((f true).run s).1 = .error e → Admits e) (e : Abort)
    (h : ((ordinaryCapacityAvailable records bytes >>= f).run s).1 = .error e) : Admits e := by
  obtain ⟨hrun, -⟩ | ⟨fits, hrun, hiff⟩ := run_capacity records bytes s
  · rw [Procedure.run_bind_error hrun] at h
    cases h
    exact nofun
  · rw [Procedure.run_bind_ok hrun, hiff.2 hfits] at h
    exact hf e h

theorem poll_admits {α : Type} {f : RecordingStatus → Step layout α}
    (hf : ∀ status s₁, Path Quiet s s₁ → ∀ e, ((f status).run s₁).1 = .error e → Admits e) (e : Abort)
    (h : ((poll >>= f).run s).1 = .error e) : Admits e := by
  refine Procedure.Stops.bind_at (fun e he => ?_) (fun status s₁ hrun => hf status s₁ ?_) e h
  · rw [poll_stops s e he]
    exact nofun
  · have hpath := (poll_path s).1
    rwa [hrun] at hpath

theorem tryAdmitAt_admits (group : Group) (submittedAt : ℕ) (hsmall : group.oversizedRecord = false)
    (hbytes : group.bytes layout ≤ maxGroupBytes)
    (hroom : ∀ s₁ : System layout, Path Quiet s s₁ → s₁.owner.Fits group.facts.length (group.bytes layout)) :
    ∀ e, ((tryAdmitAt group submittedAt).run s).1 = .error e → Admits e := by
  refine poll_admits fun status s₁ hpath => ?_
  rw [Procedure.run_bind_ok (run_owner s₁)]
  split_ifs with hinvalid
  · exact Procedure.Stops.stop (σ := System layout) (by simp [Admits]) s₁
  rw [if_neg (by simpa [hsmall] using hbytes)]
  refine capacity_admits (hroom s₁ hpath) ?_
  refine (Procedure.Stops.bind (plan_stops _ (by simp [Admits])) fun range => .bind (transfer_stops _ _) fun outcome => ?_) s₁
  cases outcome with
  | sent => exact .pure _
  | disconnected => exact .bind (fail_stops _) fun _ => .stop (by simp [Admits])
  | full => exact .bind (failWithGap_stops _) fun _ => .stop (by simp [Admits])

theorem tryAdmitOperation_admits (operation : OperationRecord)
    (hroom : ∀ (s₁ : System layout) bytes, Path Quiet s s₁ → operation.compact.charge = some bytes →
      bytes ≤ maxGroupBytes ∧ s₁.owner.Fits 1 bytes) :
    ∀ e, ((tryAdmitOperation operation).run s).1 = .error e → Admits e := by
  refine poll_admits fun status s₁ hpath => ?_
  rw [Procedure.run_bind_ok (run_owner s₁)]
  by_cases hinvalid : ¬ operationAdmissible s₁.owner operation = true
  · rw [if_pos hinvalid]
    exact Procedure.Stops.stop (σ := System layout) (by simp [Admits]) s₁
  rw [if_neg hinvalid]
  dsimp only
  cases hcharge : operation.compact.charge with
  | none => exact Procedure.Stops.stop (σ := System layout) (by simp [Admits]) s₁
  | some bytes =>
    obtain ⟨hbytes, hfits⟩ := hroom s₁ bytes hpath hcharge
    dsimp only
    rw [if_neg (Nat.not_lt.2 hbytes)]
    refine capacity_admits hfits ?_
    refine (Procedure.Stops.bind (plan_stops _ (by simp [Admits])) fun range => .bind (transfer_stops _ _) fun outcome => ?_) s₁
    cases outcome with
    | sent => exact .pure _
    | disconnected => exact .bind (failWithGap_stops _) fun _ => .stop (by simp [Admits])
    | full => exact .bind (failWithGap_stops _) fun _ => .stop (by simp [Admits])

/-- A reserved group gives its credit back in full. -/
theorem run_cancelFactGroup {token : ℕ} (hs : Credited s) (hreserved : token ∈ s.owner.reservedFactGroups) :
    ∃ s₁ : System layout, (cancelFactGroup token).run s = (.ok (), s₁) ∧ Credited s₁ ∧
      (s₁.owner.charge factGroupCredit).Funded := by
  obtain ⟨done, rest, haccounts⟩ := hs.accounts
  have hcontains := (haccounts.sound hs.funded).groups (List.ne_nil_of_mem hreserved)
  cases hdelta : s.owner.charged.delta factGroupCredit with
  | none => exact absurd hcontains (Credit.delta_eq_none.1 hdelta)
  | some charged =>
    refine ⟨{ s with owner := { s.owner with
        reservedFactGroups := s.owner.reservedFactGroups.erase token, charged } }, ?_, ?_, ?_⟩
    · unfold cancelFactGroup release
      rw [Procedure.run_bind_ok (run_owner s), if_pos hreserved, Procedure.run_bind_ok (run_owner s), hdelta]
      rfl
    · have hmove : Micro Free s { s with owner := { s.owner with
          reservedFactGroups := s.owner.reservedFactGroups.erase token, charged } } :=
        .changed _ (.groupCancelled token charged hreserved hdelta)
      exact hmove.credited hs
    · have hcharged := Credit.delta_eq_some.1 hdelta
      exact hs.funded.of_same rfl (by rw [hcharged]; exact add_comm _ _) rfl

/-- A reserved group is converted within its reservation. -/
theorem admitReservedFacts_admits {token : ℕ} {group : Group} (time : ℕ) (hs : Credited s)
    (hreserved : token ∈ s.owner.reservedFactGroups) (hlength : group.facts.length ≤ 256)
    (hsmall : group.oversizedRecord = false) (hbytes : group.bytes layout ≤ maxGroupBytes) :
    ∀ e, ((admitReservedFacts token group time).run s).1 = .error e → Admits e := by
  obtain ⟨s₁, hrun, hcredited, hroom⟩ := run_cancelFactGroup hs hreserved
  unfold admitReservedFacts
  rw [Procedure.run_bind_ok hrun]
  split_ifs with hempty
  · exact fun _ => nofun
  have hpos : 0 < group.facts.length := List.length_pos_iff.2 hempty
  refine Procedure.Stops.bind_at (tryAdmitAt_admits group time hsmall hbytes fun s₂ hpath => ?_) fun _ _ _ _ => nofun
  refine RecorderWorker.fits_of_funded hpos (RecorderWorker.funded_charge_mono (hpath.room hcredited hroom).1 ?_)
  exact Credit.contains_iff.2 ⟨le_rfl, hlength, hbytes⟩

/-- A live activation whose record fits its reservation is transferred, unless no number or no slot is left. -/
theorem commitReservedLiveActivation_admits {reservation : LiveActivationReservation} (root : ActivationRoot)
    {lifecycle : ConfigurationLifecycleRecord} {charge : ℕ}
    (hreserved : s.owner.liveActivationReservation = some reservation) (hvalid : lifecycle.valid = true)
    (hcharge : lifecycle.charge = some charge) (hfits : charge ≤ reservation.bytes) :
    ∀ e, ((commitReservedLiveActivation reservation.generation root lifecycle).run s).1 = .error e →
      e = .rejected "record identity exhausted" ∨ e = .rejected "recorder lifecycle slot unavailable" := by
  unfold commitReservedLiveActivation
  rw [Procedure.run_bind_ok (run_owner s), hreserved]
  dsimp only
  rw [hcharge]
  dsimp only
  rw [if_neg (by simp [hvalid, hfits])]
  exact (Procedure.Stops.bind (plan_stops _ (.inl rfl)) fun range => sendControl_stops _ _ (.inr rfl)) s

theorem compact_charge {operation : OperationRecord} {bytes : ℕ} (h : operation.compact.charge = some bytes) :
    bytes = operation.scope.len + operation.data.len + 256 := by
  obtain ⟨texts, htexts, hbytes⟩ := Option.bind_eq_some_iff.1 h
  obtain ⟨rfl, -⟩ := checkedAdd_eq_some.1 htexts
  obtain ⟨rfl, -⟩ := checkedAdd_eq_some.1 hbytes
  rfl

/-- What was found to fit still does when the operation comes. -/
theorem tryAdmitOperation_found {operation : OperationRecord} {s₁ : System layout} (hs : Credited s)
    (hfound : (operationCreditAvailable operation).run s = (.ok true, s₁)) (moves : List WorkerMove) (schedule : Schedule) :
    ∀ e, ((tryAdmitOperation operation).run
      { s₁ with storage := moves.foldl Storage.work s₁.storage, schedule }).1 = .error e → Admits e := by
  unfold operationCreditAvailable at hfound
  obtain ⟨status, s₂, hpoll, hfound⟩ := Procedure.bind_ok.1 hfound
  have hpath := (poll_path s).1
  rw [hpoll] at hpath
  have hcredited : Credited s₂ := hpath.keeps (fun _ _ => Micro.credited) hs
  rw [Procedure.run_bind_ok (run_owner s₂)] at hfound
  by_cases hinvalid : ¬ operationAdmissible s₂.owner operation = true
  · rw [if_pos hinvalid] at hfound
    cases hfound
  rw [if_neg hinvalid] at hfound
  dsimp only at hfound
  by_cases hlarge : maxGroupBytes < operation.scope.len + operation.data.len + 256
  · rw [if_pos hlarge] at hfound
    cases hfound
  rw [if_neg hlarge] at hfound
  obtain ⟨hrun, -⟩ | ⟨fits, hrun, hiff⟩ := run_capacity 1 (operation.scope.len + operation.data.len + 256) s₂
  · rw [hrun] at hfound
    cases hfound
  obtain ⟨rfl, rfl⟩ : fits = true ∧ s₂ = s₁ := by
    rw [hrun] at hfound
    cases hfound
    exact ⟨rfl, rfl⟩
  have hroom := (hiff.1 rfl).funded hcredited.funded
  have hwait : Path Quiet s₂ { s₂ with storage := moves.foldl Storage.work s₂.storage, schedule } :=
    (work_path moves s₂).tail (.scheduled schedule)
  refine tryAdmitOperation_admits operation fun s₃ bytes hpath hcharge => ?_
  obtain rfl := compact_charge hcharge
  exact ⟨Nat.not_lt.1 hlarge, RecorderWorker.fits_of_funded one_pos (Path.room (hwait.trans hpath) hcredited hroom).1⟩

/-! ### Reference operations -/

/-- With the default limits a Reference operation fits as soon as the protected credit has room for it. -/
theorem referenceFits_of_protected {o : RecorderWorker layout} {credit : Credit} (hfunded : o.Funded)
    (hlimits : o.limits = .default) (h : (protectedCredit layout).contains (o.referenceCredit + credit) = true) :
    referenceFits o credit = true := by
  obtain ⟨free, hprotected, hguarded⟩ := hfunded.guarded hlimits
  have hle := Credit.contains_iff.1 h
  rw [Credit.contains_iff] at hguarded
  rw [hprotected] at hle
  simp only [RecorderLimits.credit, Credit.add_groups, Credit.add_records, Credit.add_bytes] at hguarded hle
  have hfree : free.contains credit = true := Credit.contains_iff.2 (by omega)
  simp only [referenceFits, hprotected, Credit.add_delta, Option.any_some, hfree, Bool.or_true, Bool.and_true, Bool.and_eq_true,
    decide_eq_true_eq]
  omega

/-- A Reference reservation is turned down for a pending activation, or for want of credit. -/
theorem reserveReferenceOperation_refused {accepted : OperationRecord}
    (h : (reserveReferenceOperation accepted).run s = (.ok false, s')) :
    Path Quiet s s' ∧ (s'.owner.pendingActivationGeneration ≠ none ∨ ∃ bytes, accepted.compact.charge = some bytes ∧
      referenceFits s'.owner (operationCredit layout bytes) = false) := by
  unfold reserveReferenceOperation at h
  obtain ⟨status, s₁, hpoll, h⟩ := Procedure.bind_ok.1 h
  have hpath := (poll_path s).1
  rw [hpoll] at hpath
  rw [Procedure.run_bind_ok (run_owner s₁)] at h
  by_cases hinvalid : ¬ referenceAdmissible s₁.owner accepted = true
  · rw [if_pos hinvalid] at h
    cases h
  rw [if_neg hinvalid] at h
  by_cases hpending : s₁.owner.pendingActivationGeneration.isSome = true
  · rw [if_pos hpending] at h
    cases h
    exact ⟨hpath, .inl (Option.isSome_iff_ne_none.1 hpending)⟩
  rw [if_neg hpending] at h
  dsimp only at h
  cases hcharge : accepted.compact.charge with
  | none =>
    rw [hcharge] at h
    cases h
  | some bytes =>
    rw [hcharge] at h
    dsimp only at h
    by_cases hfits : referenceFits s₁.owner (operationCredit layout bytes) = true
    · rw [if_neg (by simp [hfits])] at h
      cases h
    · rw [if_pos (by simp [hfits])] at h
      cases h
      exact ⟨hpath, .inr ⟨bytes, rfl, by simpa using hfits⟩⟩

/-- Protected Reference credit stays free of other traffic, and credit that is reserved or was found
free is there when it is used. No record of a group may exceed 64 KiB, reserved or not. -/
theorem reference_credit_protected {limits : RecorderLimits} {now : ℕ} {s : System layout} (h : Reachable limits now s) :
    (limits = .default → ∃ free, protectedCredit layout = s.owner.referenceCredit + free ∧
      limits.credit.contains (s.owner.charged + free) = true) ∧
    (∀ accepted s', limits = .default → (reserveReferenceOperation accepted).run s = (.ok false, s') →
      s'.owner.pendingActivationGeneration = none → ∃ bytes, accepted.compact.charge = some bytes ∧
        (protectedCredit layout).contains (s'.owner.referenceCredit + operationCredit layout bytes) = false) ∧
    (∀ token group time, token ∈ s.owner.reservedFactGroups → group.facts.length ≤ 256 → group.oversizedRecord = false →
      group.bytes layout ≤ maxGroupBytes →
      ((admitReservedFacts token group time).run s).1 ≠ .error (.rejected "recorder ingress capacity exhausted")) ∧
    (∀ reservation root lifecycle charge, s.owner.liveActivationReservation = some reservation → lifecycle.valid = true →
      lifecycle.charge = some charge → charge ≤ reservation.bytes →
      ∀ e, ((commitReservedLiveActivation reservation.generation root lifecycle).run s).1 = .error e →
        e = .rejected "record identity exhausted" ∨ e = .rejected "recorder lifecycle slot unavailable") ∧
    ∀ operation s₁, (operationCreditAvailable operation).run s = (.ok true, s₁) → ∀ (moves : List WorkerMove) schedule,
      ((tryAdmitOperation operation).run { s₁ with storage := moves.foldl Storage.work s₁.storage, schedule }).1 ≠
        .error (.rejected "recorder ingress capacity exhausted") := by
  have hcredited := h.credited
  refine ⟨fun hlimits => ?_, fun accepted s' hlimits hrefused hpending => ?_,
    fun token group time hreserved hlength hsmall hbytes hrefused =>
      admitReservedFacts_admits time hcredited hreserved hlength hsmall hbytes _ hrefused rfl,
    fun reservation root lifecycle charge hreserved hvalid hcharge hfits =>
      commitReservedLiveActivation_admits root hreserved hvalid hcharge hfits,
    fun operation s₁ hfound moves schedule hrefused => tryAdmitOperation_found hcredited hfound moves schedule _ hrefused rfl⟩
  · obtain ⟨free, hprotected, hguarded⟩ := hcredited.funded.guarded (h.limits.trans hlimits)
    exact ⟨free, hprotected, h.limits ▸ hguarded⟩
  · obtain ⟨hpath, hreason⟩ := reserveReferenceOperation_refused hrefused
    have hreachable : Reachable limits now s' := h.trans (hpath.grant fun _ _ _ _ => trivial)
    obtain ⟨bytes, hcharge, hfits⟩ := hreason.resolve_left fun hne => hne hpending
    refine ⟨bytes, hcharge, Bool.eq_false_iff.2 fun hroom => ?_⟩
    rw [referenceFits_of_protected hreachable.credited.funded (hreachable.limits.trans hlimits) hroom] at hfits
    cases hfits

theorem reference_credit_protected_cooling : (∃ free, protectedCredit heaterLayout = coolingSystem.owner.referenceCredit + free ∧
      RecorderLimits.default.credit.contains (coolingSystem.owner.charged + free) = true) ∧
    ((admitReservedFacts 1 { facts := [.output 4], spare := 0 } 4).run coolingSystem).1 ≠
      .error (.rejected "recorder ingress capacity exhausted") := by
  have h := reference_credit_protected (reachable_after .default 0 coolingRun : Reachable .default 0 coolingSystem)
  exact ⟨h.1 rfl, h.2.2.1 1 { facts := [.output 4], spare := 0 } 4 (by decide +kernel) (by decide) (by decide) (by decide +kernel)⟩

end LabRuntime.Recorder
