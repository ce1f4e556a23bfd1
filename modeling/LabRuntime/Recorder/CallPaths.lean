import LabRuntime.Lib.History
import LabRuntime.Recorder.Polling

/-! Every call of the owner is a path of moves, under any premise that grants what the call may do. -/

namespace LabRuntime.Recorder

variable {layout : FactLayout} {A : System layout → Act → Prop} {s : System layout} {acts : Act → Prop}

/-! ### Rules -/

theorem poll_bind {α : Type} {f : RecordingStatus → Step layout α} (h : Granted A s acts)
    (hf : ∀ status s₁, Granted A s₁ acts → status = s₁.owner.cached ∨ s₁.owner.Exhausted →
      Path A s₁ ((f status).run s₁).2) : Path A s ((poll >>= f).run s).2 := by
  obtain ⟨hpath, hstatus⟩ := poll_path s
  refine Procedure.Moves.bind_at (h.quiet hpath) fun status s₁ hrun => ?_
  rw [hrun] at hpath
  exact hf status s₁ (h.next hpath.calm) (hstatus status s₁ hrun)

theorem expect_bind {α β : Type} {value : Option α} {f : α → Step layout β}
    (hnone : value = none → ¬ s.owner.Sound) (hf : ∀ a, value = some a → Path A s ((f a).run s).2) :
    Path A s ((expect value >>= f).run s).2 := by
  cases value with
  | none =>
    rw [Procedure.run_bind_error (run_expect_none s)]
    exact .single (.panicked (hnone rfl))
  | some a =>
    rw [Procedure.run_bind_ok (run_expect_some a s)]
    exact hf a rfl

theorem run_capacity (records bytes : ℕ) (s : System layout) :
    (ordinaryCapacityAvailable records bytes).run s = (.error .panicked, { s with panicked := true }) ∧
        ¬ s.owner.Sound ∨
      ∃ fits, (ordinaryCapacityAvailable records bytes).run s = (.ok fits, s) ∧
        (fits = true ↔ s.owner.Fits records bytes) := by
  have hrun : (ordinaryCapacityAvailable records bytes).run s =
      (expect s.owner.protectedFree >>= fun free => (pure (s.owner.fitsBeside free records bytes) : Step layout Bool)).run s :=
    rfl
  rw [hrun]
  cases hfree : s.owner.protectedFree with
  | none =>
    refine .inl ⟨rfl, fun hsound => ?_⟩
    unfold RecorderWorker.protectedFree at hfree
    split_ifs at hfree with hlimits
    exact Credit.delta_eq_none.1 hfree (hsound.bounded hlimits)
  | some free =>
    refine .inr ⟨_, rfl, fun h => ⟨free, hfree, h⟩, fun ⟨free', hfree', h⟩ => ?_⟩
    rw [hfree] at hfree'
    cases hfree'
    exact h

theorem capacity_bind {α : Type} {records bytes : ℕ} {f : Bool → Step layout α}
    (hf : ∀ fits, (fits = true → s.owner.Fits records bytes) → Path A s ((f fits).run s).2) :
    Path A s ((ordinaryCapacityAvailable records bytes >>= f).run s).2 := by
  obtain ⟨hrun, hsound⟩ | ⟨fits, hrun, hfits⟩ := run_capacity records bytes s
  · rw [Procedure.run_bind_error hrun]
    exact .single (.panicked hsound)
  · rw [Procedure.run_bind_ok hrun]
    exact hf fits hfits.1

theorem run_plan (count : ℕ) (s : System layout) : (plan count).run s = match s.owner.plannedRange count with
    | some range => (.ok range, s)
    | none => (.error (.rejected "record identity exhausted"), s) := by
  unfold plan
  rw [Procedure.run_bind_ok (run_owner s)]
  cases s.owner.plannedRange count <;> rfl

theorem plan_bind {α : Type} {count : ℕ} {f : ℕ × ℕ → Step layout α}
    (hf : ∀ first last, s.owner.Next count first last → Path A s ((f (first, last)).run s).2) :
    Path A s ((plan count >>= f).run s).2 := by
  have hrun := run_plan count s
  cases hplan : s.owner.plannedRange count with
  | none =>
    rw [hplan] at hrun
    rw [Procedure.run_bind_error hrun]
  | some range =>
    rw [hplan] at hrun
    rw [Procedure.run_bind_ok hrun]
    exact hf range.1 range.2 hplan

/-- The status of a poll that leaves record numbers is the owner's. -/
theorem status_eq {status : RecordingStatus} {count first last : ℕ}
    (h : status = s.owner.cached ∨ s.owner.Exhausted) (hnext : s.owner.Next count first last) :
    status = s.owner.cached :=
  h.resolve_right fun hexhausted => absurd (RecorderWorker.next_iff.1 hnext).2.1 (Nat.not_le_of_lt hexhausted)

/-- Polling does not ask for the end. -/
theorem Path.finishRequested {s' : System layout} (h : Path Quiet s s') :
    s'.owner.finishRequested = s.owner.finishRequested := by
  induction h with
  | refl => rfl
  | tail _ step ih =>
    rw [← ih]
    cases step with
    | sent message o offer granted => cases offer <;> first | rfl | cases granted
    | reserved o h granted => cases granted
    | changed o h => cases h <;> rfl
    | _ => rfl

/-! ### Lifecycle and activation -/

theorem requestActivation_path (root : ActivationRoot) (h : Granted A s (· = .send (.activation root none))) :
    Path A s ((requestActivation root).run s).2 := by
  refine poll_bind h fun status s h hstatus => ?_
  rw [Procedure.run_bind_ok (run_owner s)]
  split_ifs with hinvalid
  · exact .refl
  simp only [not_or, not_not, Bool.not_eq_true, Option.isSome_eq_false_iff, Option.isNone_iff_eq_none] at hinvalid
  refine sendControl_path _ _ (.startupActivation root ?_ hinvalid.2) h rfl
  exact hstatus.imp_left fun heq => by rw [← heq]; exact hinvalid.1

theorem tryReserveLiveActivation_path (lifecycle : ConfigurationLifecycleRecord) (h : Granted A s (· = .reserve)) :
    Path A s ((tryReserveLiveActivation lifecycle).run s).2 := by
  refine poll_bind h fun status s h hstatus => ?_
  rw [Procedure.run_bind_ok (run_owner s)]
  split_ifs with hinvalid
  · exact .refl
  simp only [not_or, Bool.not_eq_true, Option.isSome_eq_false_iff, Option.isNone_iff_eq_none] at hinvalid
  obtain ⟨hstate, -, hpending, hreservation, -⟩ := hinvalid
  cases hcharge : lifecycle.charge with
  | none => exact .refl
  | some bytes =>
    refine capacity_bind fun fits hfits => ?_
    cases fits with
    | false => exact .refl
    | true =>
      rw [if_neg (by simp)]
      cases hgeneration : checkedAdd status.activationGeneration 1 with
      | none => exact .refl
      | some generation =>
        refine .single (.reserved _ (.live bytes generation ?_ ⟨hreservation, hpending⟩ (hfits rfl)) (h s _ .refl (.inr rfl)))
        obtain heq | hexhausted := hstatus
        · rw [heq, ← not_or, not_not] at hstate
          exact hstate.imp_right .inl
        · exact .inr (.inr hexhausted)

theorem commitReservedLiveActivation_path (generation : ℕ) (root : ActivationRoot) (lifecycle : ConfigurationLifecycleRecord)
    (h : Granted A s fun act => ∃ live, act = .send (.activation root (some live))) :
    Path A s ((commitReservedLiveActivation generation root lifecycle).run s).2 := by
  unfold commitReservedLiveActivation
  rw [Procedure.run_bind_ok (run_owner s)]
  cases hreserved : s.owner.liveActivationReservation with
  | none => exact .refl
  | some reservation =>
    cases hcharge : lifecycle.charge with
    | none => exact .refl
    | some charge =>
      dsimp only
      split_ifs with hinvalid
      · exact .refl
      simp only [not_or, not_not] at hinvalid
      refine plan_bind fun first last hnext => ?_
      exact sendControl_path _ _ (.liveActivation root lifecycle reservation first last hreserved hinvalid.2.2 hnext) h
        ⟨_, rfl⟩

theorem cancelLiveActivationReservation_path (generation : ℕ) :
    Path A s ((cancelLiveActivationReservation generation).run s).2 := by
  unfold cancelLiveActivationReservation
  rw [Procedure.run_bind_ok (run_owner s)]
  cases hreserved : s.owner.liveActivationReservation with
  | none => exact .refl
  | some reservation =>
    dsimp only
    split_ifs
    · exact .refl
    · exact .single (.changed _ (.liveCancelled reservation hreserved))

theorem configurePolicy_path (policy : RecordingPolicy) (h : Granted A s acts) :
    Path A s ((configurePolicy policy).run s).2 := by
  unfold configurePolicy
  rw [Procedure.run_bind_ok (run_owner s)]
  split_ifs
  · exact .refl
  refine poll_bind h fun status s h hstatus => ?_
  split_ifs
  · exact .refl
  · exact .single (.changed _ (.configured policy))

theorem requestStart_path (label : String) (submittedAt : ℕ) (boundary : BoundarySnapshot)
    (h : Granted A s fun act => ∃ policy first, act = .send (.start label policy submittedAt boundary first)) :
    Path A s ((requestStart label submittedAt boundary).run s).2 := by
  refine poll_bind h fun status s h hstatus => ?_
  split_ifs with hinvalid
  · exact .refl
  simp only [not_or, not_not, Bool.not_eq_true, Bool.not_eq_false] at hinvalid
  obtain ⟨hidle, hblank, hlength, htime, hvalid⟩ := hinvalid
  refine plan_bind fun first last hnext => ?_
  rw [Procedure.run_bind_ok (run_owner s)]
  refine sendControl_path _ _ (.start label submittedAt boundary first last ?_ ⟨hblank, by omega⟩ ⟨htime, hvalid⟩ hnext)
    h ⟨_, _, rfl⟩
  rw [← status_eq hstatus hnext]
  exact hidle

theorem requestStop_path (summary : Summary) (requestedAt : ℕ)
    (h : Granted A s fun act => ∃ first, act = .send (.stop summary requestedAt first)) :
    Path A s ((requestStop summary requestedAt).run s).2 := by
  refine poll_bind h fun status s h hstatus => ?_
  rw [Procedure.run_bind_ok (run_owner s)]
  split_ifs with hinvalid hlong
  · exact .refl
  · exact .refl
  simp only [not_or, not_not, Bool.not_eq_true, Option.isSome_eq_false_iff, Option.isNone_iff_eq_none] at hinvalid
  refine plan_bind fun first last hnext => ?_
  refine sendControl_path _ _ (.stop summary requestedAt first last ?_ hinvalid.2 (by omega) hnext) h ⟨_, rfl⟩
  rw [← status_eq hstatus hnext]
  exact hinvalid.1

theorem requestProbe_path (submittedAt : ℕ) (h : Granted A s (· = .send (.probe submittedAt))) :
    Path A s ((requestProbe submittedAt).run s).2 := by
  refine poll_bind h fun status s h hstatus => ?_
  rw [Procedure.run_bind_ok (run_owner s)]
  split_ifs with hstate hdue
  · exact .refl
  · exact .refl
  simp only [not_not] at hstate
  simp only [not_or, Bool.not_eq_true, Bool.not_eq_false] at hdue
  exact sendControl_path _ _ (.probe submittedAt hstate hdue.1 hdue.2) h rfl

theorem requestFinish_path (summary : Summary) (time : ℕ)
    (h : Granted A s fun act => ∃ first, act = .send (.finish summary time first)) :
    Path A s ((requestFinish summary time).run s).2 := by
  unfold requestFinish
  rw [Procedure.run_bind_ok (run_owner s)]
  by_cases hfinished : s.owner.finishRequested = true
  · rw [if_pos hfinished]
    exact .refl
  rw [if_neg hfinished]
  obtain ⟨hpath, hstatus⟩ := poll_path s
  refine Procedure.Moves.bind_at (h.quiet hpath) fun status s₁ hrun => ?_
  rw [hrun] at hpath
  have hstatus := hstatus status s₁ hrun
  rw [Procedure.run_bind_ok (run_owner s₁)]
  by_cases hinvalid : ¬ (status.state = .idle ∨ status.state = .failed) ∨ s₁.owner.referenceCompletion.isSome = true
  · rw [if_pos hinvalid]
    exact .refl
  rw [if_neg hinvalid]
  by_cases hlong : 16 * 1024 < summary.len
  · rw [if_pos hlong]
    exact .refl
  rw [if_neg hlong]
  rw [not_or, not_not, Bool.not_eq_true, Option.isSome_eq_false_iff, Option.isNone_iff_eq_none] at hinvalid
  refine plan_bind fun first last hnext => ?_
  refine sendControl_path _ _ (.finish summary time first last ?_ ?_ hinvalid.2 (by omega) hnext) (h.next hpath.calm) ⟨_, rfl⟩
  · rw [← status_eq hstatus hnext]
    exact hinvalid.1
  · rw [Path.finishRequested hpath]
    simpa using hfinished

/-! ### Ingress -/

/-- A gap that the recorder itself reports, and its seal. -/
def reportsGap (act : Act) : Prop := (∃ gap first, gap.valid = true ∧ act = .send (.gapSeal gap first)) ∨ act = .gap

/-- A valid gap is noted and sealed, and the call is refused. -/
theorem gap_reject {α : Type} (gap : RecorderGap) (error : StorageError) (hvalid : gap.valid = true)
    (h : Granted A s acts) (hacts : ∀ act, reportsGap act → acts act) :
    Path A s ((failWithGap gap >>= fun _ => (reject error : Step layout α)).run s).2 := by
  refine Procedure.Moves.bind_from (failWithGap_path gap (h.subset fun act hact => hacts act ?_)) fun _ _ => .refl
  obtain ⟨first, heq⟩ | heq | ⟨hinvalid, -⟩ := hact
  · exact .inl ⟨gap, first, hvalid, heq⟩
  · exact .inr heq
  · rw [hvalid] at hinvalid
    cases hinvalid

/-- A failure is noted, and the call is refused. -/
theorem fail_reject {α : Type} (message error : StorageError) (cause : Cause s ∨ acts .misuse) (h : Granted A s acts) :
    Path A s ((fail message >>= fun _ => (reject error : Step layout α)).run s).2 :=
  Procedure.Moves.bind_from (fail_path message cause h) fun _ _ => .refl

/-- After a transfer: it was sent, or the channel was full or gone. -/
theorem transfer_bind {α : Type} {message : Message} {accepted : RecorderWorker layout → RecorderWorker layout}
    {f : Transfer → Step layout α} (offer : s.owner.Offer message (accepted s.owner)) (h : Granted A s acts)
    (hact : acts (.send message)) (hsent : ∀ s₁, Path A s₁ ((f .sent).run s₁).2)
    (hfull : ∀ s₁, Granted A s₁ acts → s₁.owner = s.owner → fifoCapacity ≤ s₁.storage.queue.length →
      Path A s₁ ((f .full).run s₁).2)
    (hdown : ∀ s₁, Granted A s₁ acts → s₁.owner = s.owner → s₁.storage.phase.receiving = false →
      Path A s₁ ((f .disconnected).run s₁).2) :
    Path A s ((transfer message accepted >>= f).run s).2 := by
  obtain ⟨s₁, hrun, hpath, howner, hreceiving, hroom⟩ | ⟨s₁, hrun, hpath, howner, hqueue⟩ | ⟨s₁, hrun, hpath, howner, hphase⟩ :=
    run_transfer message accepted s offer
  · rw [Procedure.run_bind_ok hrun]
    refine ((h.quiet hpath).tail (.sent message _ ?_ (h s₁ _ hpath.calm (.inr hact)) hreceiving hroom)).trans (hsent _)
    rwa [howner]
  · rw [Procedure.run_bind_ok hrun]
    exact (h.quiet hpath).trans (hfull s₁ (h.next hpath.calm) howner hqueue)
  · rw [Procedure.run_bind_ok hrun]
    exact (h.quiet hpath).trans (hdown s₁ (h.next hpath.calm) howner hphase)

theorem groupGap_valid (o : RecorderWorker layout) {reason : String} {group : Group} (time : ℕ)
    (hreason : reason ≠ "" ∧ reason.utf8ByteSize ≤ 512) (hfacts : group.facts ≠ []) :
    (groupGap o reason group time).valid = true := by
  have hpos : 0 < group.facts.length := List.length_pos_iff.2 hfacts
  simp [RecorderGap.valid, groupGap, hreason, hpos]

theorem recordGap_valid (o : RecorderWorker layout) {reason : String} (time : ℕ)
    (hreason : reason ≠ "" ∧ reason.utf8ByteSize ≤ 512) : (recordGap o reason time).valid = true := by
  simp [RecorderGap.valid, recordGap, hreason]

/-- What admitting a group may do. -/
def groupActs (group : Group) (submittedAt : ℕ) (act : Act) : Prop :=
  (∃ g : FactGroup, g.facts = group.facts ∧ g.submittedAt = submittedAt ∧ act = .send (.facts g)) ∨ reportsGap act

theorem tryAdmitAt_path (group : Group) (submittedAt : ℕ) (h : Granted A s (groupActs group submittedAt)) :
    Path A s ((tryAdmitAt group submittedAt).run s).2 := by
  refine poll_bind h fun _ s h _ => ?_
  rw [Procedure.run_bind_ok (run_owner s)]
  split_ifs with hinvalid
  · exact .refl
  simp only [not_or, not_not, not_lt] at hinvalid
  obtain ⟨hstate, hnonempty, hlength⟩ := hinvalid
  have hrefused : Path A s ((do
      failWithGap (groupGap s.owner "recorder ingress capacity exhausted" group submittedAt)
      reject "recorder ingress capacity exhausted" : Step layout (ℕ × ℕ)).run s).2 :=
    gap_reject _ _ (groupGap_valid _ _ (by decide) hnonempty) h fun _ => .inr
  by_cases hlarge : group.oversizedRecord = true ∨ maxGroupBytes < group.bytes layout
  · rw [if_pos hlarge]
    exact hrefused
  rw [if_neg hlarge]
  simp only [not_or, Bool.not_eq_true, not_lt] at hlarge
  refine capacity_bind fun fits hfits => ?_
  beta_reduce
  cases fits with
  | false => exact hrefused
  | true =>
    rw [if_neg (by simp)]
    refine plan_bind fun first last hnext => ?_
    refine transfer_bind (.facts group submittedAt first last hstate hnonempty ⟨hlength, hlarge.2⟩ hlarge.1 (hfits rfl) hnext)
      h (.inl ⟨_, rfl, rfl, rfl⟩) (fun _ => .refl) (fun s₁ h _ _ => ?_) fun s₁ h _ hdown => ?_
    · exact gap_reject _ _ (groupGap_valid _ _ (by decide) hnonempty) h fun _ => .inr
    · exact fail_reject _ _ (.inl (.down (.inr (.inr hdown)))) h

def operationActs (operation : OperationRecord) (act : Act) : Prop :=
  (∃ bytes first, act = .send (.operation operation.compact bytes first)) ∨ reportsGap act

theorem tryAdmitOperation_path (operation : OperationRecord) (h : Granted A s (operationActs operation)) :
    Path A s ((tryAdmitOperation operation).run s).2 := by
  refine poll_bind h fun _ s h _ => ?_
  rw [Procedure.run_bind_ok (run_owner s)]
  by_cases hinvalid : ¬ operationAdmissible s.owner operation = true
  · rw [if_pos hinvalid]
    exact .refl
  rw [if_neg hinvalid]
  rw [not_not] at hinvalid
  have hrefused : ∀ time, Path A s ((do
      failWithGap (recordGap s.owner "recorder ingress capacity exhausted" time)
      reject "recorder ingress capacity exhausted" : Step layout Unit).run s).2 := fun time =>
    gap_reject _ _ (recordGap_valid _ _ (by decide)) h fun _ => .inr
  dsimp only
  cases hcharge : operation.compact.charge with
  | none => exact .refl
  | some bytes =>
    dsimp only
    by_cases hlarge : maxGroupBytes < bytes
    · rw [if_pos hlarge]
      exact hrefused _
    rw [if_neg hlarge]
    refine capacity_bind fun fits hfits => ?_
    cases fits with
    | false => exact hrefused _
    | true =>
      rw [if_neg (by simp)]
      refine plan_bind fun first last hnext => ?_
      refine transfer_bind (.operation operation bytes first last hinvalid hcharge (hfits rfl) hnext) h
        (.inl ⟨_, _, rfl⟩) (fun _ => .refl) (fun s₁ h _ _ => ?_) fun s₁ h _ _ => ?_
      · exact gap_reject _ _ (recordGap_valid _ _ (by decide)) h fun _ => .inr
      · exact gap_reject _ _ (recordGap_valid _ _ (by decide)) h fun _ => .inr

theorem operationCreditAvailable_path (operation : OperationRecord) (h : Granted A s acts) :
    Path A s ((operationCreditAvailable operation).run s).2 := by
  refine poll_bind h fun _ s h _ => ?_
  rw [Procedure.run_bind_ok (run_owner s)]
  by_cases hinvalid : ¬ operationAdmissible s.owner operation = true
  · rw [if_pos hinvalid]
    exact .refl
  rw [if_neg hinvalid]
  by_cases hlarge : maxGroupBytes < operation.scope.len + operation.data.len + 256
  · exact (congrArg (fun x : Step layout Bool => Path A s (x.run s).2) (if_pos hlarge)).mpr .refl
  · refine (congrArg (fun x : Step layout Bool => Path A s (x.run s).2) (if_neg hlarge)).mpr ?_
    rw [← Procedure.run_bind_pure _ id]
    exact capacity_bind fun _ _ => .refl

def annotationActs (note : AnnotationRecord) (act : Act) : Prop :=
  (∃ bytes assigned, act = .send (Message.annotation note bytes assigned)) ∨ reportsGap act

theorem tryAdmitAnnotation_path (note : AnnotationRecord) (h : Granted A s (annotationActs note)) :
    Path A s (( tryAdmitAnnotation note).run s).2 := by
  refine poll_bind h fun _ s h _ => ?_
  rw [Procedure.run_bind_ok (run_owner s)]
  split_ifs with hinvalid
  · exact .refl
  simp only [not_or, not_not] at hinvalid
  have hrefused : Path A s ((do
      failWithGap (recordGap s.owner "recorder annotation ingress capacity exhausted" note.time)
      reject "annotation ingress capacity exhausted" : Step layout ℕ).run s).2 :=
    gap_reject _ _ (recordGap_valid _ _ (by decide)) h fun _ => .inr
  cases hcharge : note.charge with
  | none => exact .refl
  | some bytes =>
    dsimp only
    by_cases hlarge : 64 * 1024 < bytes ∨ maxGroupBytes < bytes
    · rw [if_pos hlarge]
      exact hrefused
    rw [if_neg hlarge]
    refine capacity_bind fun fits hfits => ?_
    cases fits with
    | false => exact hrefused
    | true =>
      rw [if_neg (by simp)]
      refine plan_bind fun first last hnext => ?_
      refine transfer_bind (RecorderWorker.Offer.annotation note bytes first last hinvalid.1 hinvalid.2 (hfits rfl) hnext) h
        (.inl ⟨_, _, rfl⟩) (fun _ => .refl) (fun s₁ h _ _ => ?_) fun s₁ h _ _ => ?_
      · exact gap_reject _ _ (recordGap_valid _ _ (by decide)) h fun _ => .inr
      · exact gap_reject _ _ (recordGap_valid _ _ (by decide)) h fun _ => .inr

/-! ### Reserved fact groups -/

theorem reserveFactGroup_path (h : Granted A s (· = .reserve)) : Path A s ((reserveFactGroup : Step layout (Option ℕ)).run s).2 := by
  refine poll_bind h fun status s h hstatus => ?_
  by_cases hstate : status.state ≠ .recording
  · rw [if_pos hstate]
    exact .refl
  rw [if_neg hstate]
  rw [ne_eq, not_not] at hstate
  refine capacity_bind fun fits hfits => ?_
  cases fits with
  | false => exact .refl
  | true =>
    rw [if_neg (by simp), Procedure.run_bind_ok (run_owner s)]
    dsimp only
    cases hnext : checkedAdd s.owner.nextFactReservation 1 with
    | none => exact .refl
    | some next =>
      refine .single (.reserved _ (.group s.owner.nextFactReservation next ?_ (hfits rfl)) (h s _ .refl (.inr rfl)))
      exact hstatus.imp_left fun heq => by rw [← heq]; exact hstate

theorem release_path {credit : Credit} {change : RecorderWorker layout → RecorderWorker layout}
    (hnone : s.owner.charged.delta credit = none → ¬ s.owner.Sound)
    (hlocal : ∀ charged, s.owner.charged.delta credit = some charged →
      s.owner.Local { change s.owner with charged }) :
    Path A s ((release credit change).run s).2 := by
  unfold release
  rw [Procedure.run_bind_ok (run_owner s)]
  exact expect_bind hnone fun charged hcharged => .single (.changed _ (hlocal charged hcharged))

theorem cancelFactGroup_path (token : ℕ) : Path A s ((cancelFactGroup token).run s).2 := by
  unfold cancelFactGroup
  rw [Procedure.run_bind_ok (run_owner s)]
  split_ifs with htoken
  · refine release_path (fun hnone hsound => ?_) fun charged hcharged => .groupCancelled token charged htoken hcharged
    exact Credit.delta_eq_none.1 hnone (hsound.groups (List.ne_nil_of_mem htoken))
  · exact .refl

theorem admitReservedFacts_path (token : ℕ) (group : Group) (time : ℕ)
    (h : Granted A s (groupActs group time)) : Path A s ((admitReservedFacts token group time).run s).2 := by
  unfold admitReservedFacts
  refine Procedure.Moves.bind_at (cancelFactGroup_path token) fun _ s₁ hrun => ?_
  have hcancelled : Path Calm s s₁ := by
    have hpath := cancelFactGroup_path (A := Calm) (s := s) token
    rwa [hrun] at hpath
  split_ifs
  · exact .refl
  · rw [Procedure.run_bind_pure _ (fun _ => ())]
    exact tryAdmitAt_path group time (h.next hcancelled)

/-! ### The reserved Reference operation -/

theorem reserveReferenceOperation_path (accepted : OperationRecord) (h : Granted A s (· = .reserve)) :
    Path A s ((reserveReferenceOperation accepted).run s).2 := by
  refine poll_bind h fun _ s h _ => ?_
  rw [Procedure.run_bind_ok (run_owner s)]
  by_cases hinvalid : ¬ referenceAdmissible s.owner accepted = true
  · rw [if_pos hinvalid]
    exact .refl
  rw [if_neg hinvalid]
  rw [not_not] at hinvalid
  by_cases hpending : s.owner.pendingActivationGeneration.isSome = true
  · rw [if_pos hpending]
    exact .refl
  rw [if_neg hpending]
  dsimp only
  cases hcharge : accepted.compact.charge with
  | none => exact .refl
  | some acceptedBytes =>
    dsimp only
    by_cases hfits : (!referenceFits s.owner (operationCredit layout acceptedBytes)) = true
    · rw [if_pos hfits]
      exact .refl
    rw [if_neg hfits]
    rw [Bool.not_eq_true, Bool.not_eq_false'] at hfits
    exact .single (.reserved _ (.reference _ accepted acceptedBytes hinvalid hcharge ⟨rfl, rfl⟩ hfits)
      (h s _ .refl (.inr rfl)))

theorem referenceCompletionReady_path (scope : String) (seq : ℕ) (command : String) (h : Granted A s acts) :
    Path A s ((referenceCompletionReady scope seq command).run s).2 :=
  poll_bind h fun _ _ _ _ => .refl

theorem releaseUnusedReference_path (r : ReferenceReservation) (left : Option ReferenceReservation) (released : Credit)
    (hreserved : s.owner.referenceCompletion = some r)
    (hsplit : r.unused layout = released + left.elim 0 (ReferenceReservation.unused layout)) :
    Path A s ((releaseUnusedReference released fun o => { o with referenceCompletion := left }).run s).2 := by
  have hunused : s.owner.unusedReference = r.unused layout := by
    unfold RecorderWorker.unusedReference
    rw [hreserved]
    rfl
  have hcontained : s.owner.Sound → s.owner.referenceCredit.contains released = true := fun hsound => by
    have hle := Credit.contains_iff.1 hsound.unused
    rw [hunused, hsplit] at hle
    simp only [Credit.add_groups, Credit.add_records, Credit.add_bytes] at hle
    rw [Credit.contains_iff]
    omega
  unfold releaseUnusedReference
  rw [Procedure.run_bind_ok (run_owner s)]
  refine expect_bind (fun hnone hsound => Credit.delta_eq_none.1 hnone (hcontained hsound)) fun referenceCredit href => ?_
  refine release_path (fun hnone hsound => Credit.delta_eq_none.1 hnone ?_) fun charged hcharged =>
    .referenceReleased r left referenceCredit charged released hreserved hsplit href hcharged
  have hle := Credit.contains_iff.1 hsound.reference
  have hle' := Credit.contains_iff.1 (hcontained hsound)
  rw [Credit.contains_iff]
  omega

theorem cancelReferenceReservation_path : Path A s ((cancelReferenceReservation : Step layout Unit).run s).2 := by
  unfold cancelReferenceReservation
  rw [Procedure.run_bind_ok (run_owner s)]
  cases hreserved : s.owner.referenceCompletion with
  | none => exact .refl
  | some r => exact releaseUnusedReference_path r none _ hreserved (by simp)

/-- The reservation is given up, and the call is refused. -/
theorem cancel_bind {α : Type} {f : Unit → Step layout α} (h : Granted A s acts)
    (hf : ∀ s₁, Granted A s₁ acts → Path A s₁ ((f ()).run s₁).2) :
    Path A s ((cancelReferenceReservation >>= f).run s).2 := by
  refine Procedure.Moves.bind_at cancelReferenceReservation_path fun _ s₁ hrun => hf s₁ (h.next ?_)
  have hpath := cancelReferenceReservation_path (A := Calm) (s := s)
  rwa [hrun] at hpath

/-- The call changes the owner alone. -/
def SameStorage (s s' : System layout) : Prop := s'.storage = s.storage

instance : Std.Refl (@SameStorage layout) := ⟨fun _ => rfl⟩
instance : IsTrans (System layout) SameStorage := ⟨fun _ _ _ h h' => Eq.trans h' h⟩

theorem expect_storage {α : Type} (value : Option α) : Procedure.Moves SameStorage (expect value : Step layout α) := by
  intro s
  cases value <;> rfl

theorem release_storage (credit : Credit) (change : RecorderWorker layout → RecorderWorker layout) :
    Procedure.Moves SameStorage (release credit change) :=
  .bind (fun _ => rfl) fun _ => .bind (expect_storage _) fun _ _ => rfl

theorem releaseUnusedReference_storage (credit : Credit) (change : RecorderWorker layout → RecorderWorker layout) :
    Procedure.Moves SameStorage (releaseUnusedReference credit change) :=
  .bind (fun _ => rfl) fun _ => .bind (expect_storage _) fun _ => release_storage _ _

theorem cancelReferenceReservation_storage : Procedure.Moves SameStorage (cancelReferenceReservation : Step layout Unit) :=
  .bind (fun _ => rfl) fun o => by
    cases o.referenceCompletion with
    | none => exact .pure ()
    | some r => exact releaseUnusedReference_storage _ _

/-- What fails the recorder is in the storage, or in the owner's record numbers. -/
theorem Cause.same {s s' : System layout} (h : SameStorage s s')
    (cause : s.storage.phase.receiving = false ∨ fifoCapacity ≤ s.storage.queue.length) : Cause s' := by
  rw [← h] at cause
  exact cause.elim (fun hdown => .down (.inr (.inr hdown))) .full

def acceptanceActs (act : Act) : Prop :=
  (∃ accepted bytes assigned, act = .send (.referenceAccepted accepted bytes assigned)) ∨ act = .misuse

theorem commitReferenceAcceptance_path (operation : OperationRecord) (h : Granted A s acceptanceActs) :
    Path A s ((commitReferenceAcceptance operation).run s).2 := by
  refine poll_bind h fun _ s h _ => ?_
  rw [Procedure.run_bind_ok (run_owner s)]
  dsimp only
  cases hcurrent : (s.owner.referenceCompletion.bind fun r => r.accepted.bind fun a =>
      if (s.owner.referenceGenerationCurrent r && a.same operation) = true then some (r, a) else none) with
  | none => exact cancel_bind h fun s₁ h => fail_reject _ _ (.inr (.inr rfl)) h
  | some found =>
    obtain ⟨r, accepted⟩ := found
    obtain ⟨r', hreserved, hfound⟩ := Option.bind_eq_some_iff.1 hcurrent
    obtain ⟨accepted', hunsent, hfound⟩ := Option.bind_eq_some_iff.1 hfound
    split_ifs at hfound with hvalid
    cases hfound
    rw [Bool.and_eq_true] at hvalid
    dsimp only
    cases hplan : s.owner.plannedRange 1 with
    | none => exact cancel_bind h fun s₁ _ => .refl
    | some range =>
      obtain ⟨assigned, last⟩ := range
      have hsplit : r.unused layout = ⟨1, 1, r.acceptedBytes⟩ +
          (some { r with accepted := none }).elim 0 (ReferenceReservation.unused layout) := by
        ext <;> simp [ReferenceReservation.unused, hunsent] <;> omega
      have hunavailable : ∀ s₁, Granted A s₁ acceptanceActs → s₁.owner = s.owner →
          s₁.storage.phase.receiving = false ∨ fifoCapacity ≤ s₁.storage.queue.length → Path A s₁ ((do
          releaseUnusedReference ⟨1, 1, r.acceptedBytes⟩ fun o =>
            { o with referenceCompletion := some { r with accepted := none } }
          cancelReferenceReservation
          fail "Reference acceptance FIFO unavailable"
          reject "Reference acceptance FIFO unavailable" : Step layout Unit).run s₁).2 := fun s₁ h howner cause => by
        have hrelease : ∀ {B : System layout → Act → Prop}, Path B s₁ ((releaseUnusedReference ⟨1, 1, r.acceptedBytes⟩
            fun o => { o with referenceCompletion := some { r with accepted := none } }).run s₁).2 :=
          releaseUnusedReference_path r _ _ (by rw [howner]; exact hreserved) hsplit
        refine Procedure.Moves.bind_at hrelease fun _ s₂ hrun => ?_
        have hcalm : Path Calm s₁ s₂ := by simpa only [hrun] using hrelease (B := Calm)
        have hsame : SameStorage s₁ s₂ := by
          have hkept := releaseUnusedReference_storage ⟨1, 1, r.acceptedBytes⟩ (fun o : RecorderWorker layout =>
            { o with referenceCompletion := some { r with accepted := none } }) s₁
          rwa [hrun] at hkept
        refine Procedure.Moves.bind_at cancelReferenceReservation_path fun _ s₃ hrun₃ => ?_
        have hcalm₃ : Path Calm s₂ s₃ := by
          simpa only [hrun₃] using cancelReferenceReservation_path (A := Calm) (s := s₂)
        have hsame₃ : SameStorage s₂ s₃ := by
          have hkept := (cancelReferenceReservation_storage : Procedure.Moves (@SameStorage layout) _) s₂
          rwa [hrun₃] at hkept
        exact fail_reject _ _ (.inl (Cause.same (trans_of SameStorage hsame hsame₃) cause))
          ((h.next hcalm).next hcalm₃)
      refine transfer_bind (.referenceAccepted r accepted assigned last hreserved hunsent hvalid.1 hplan) h
        (.inl ⟨_, _, _, rfl⟩) (fun _ => .refl) (fun s₁ h howner hfull => ?_) fun s₁ h howner hdown => ?_
      · exact hunavailable s₁ h howner (.inr hfull)
      · exact hunavailable s₁ h howner (.inl hdown)

theorem captureReferenceCompletion_path (facts : List Fact) (time : ℕ) (h : Granted A s reportsGap) :
    Path A s ((captureReferenceCompletion facts time).run s).2 := by
  have hrefused : facts ≠ [] → Path A s ((do
      failWithGap (groupGap s.owner "Reference completion fact bound violated" { facts, spare := 0 } time)
      reject "Reference completion fact bound violated" : Step layout Unit).run s).2 := fun hfacts =>
    gap_reject _ _ (groupGap_valid _ _ (by decide) hfacts) h fun _ => id
  unfold captureReferenceCompletion
  rw [Procedure.run_bind_ok (run_owner s)]
  cases hreserved : s.owner.referenceCompletion with
  | none => exact .refl
  | some r =>
    match facts with
    | [] => exact .refl
    | [fact] =>
      dsimp only
      rw [if_neg (by simp)]
      by_cases hinvalid : r.fact.isSome = true ∨ ¬ fact.isReference = true
      · rw [if_pos hinvalid]
        exact hrefused (by simp)
      · rw [if_neg hinvalid]
        simp only [not_or, Bool.not_eq_true, Option.isSome_eq_false_iff, Option.isNone_iff_eq_none,
          Bool.not_eq_false] at hinvalid
        exact .single (.changed _ (.captured r fact time hreserved hinvalid.1 hinvalid.2))
    | _ :: _ :: _ =>
      dsimp only
      rw [if_neg (by simp)]
      exact hrefused (by simp)

def completionActs (act : Act) : Prop :=
  (∃ fact capturedAt terminal bytes first, act = .send (.referenceCompletion fact capturedAt terminal bytes first)) ∨
    act = .misuse ∨ reportsGap act

theorem commitReferenceCompletion_path (terminal : OperationRecord) (h : Granted A s completionActs) :
    Path A s ((commitReferenceCompletion terminal).run s).2 := by
  refine poll_bind h fun _ s h _ => ?_
  rw [Procedure.run_bind_ok (run_owner s)]
  dsimp only
  cases hcurrent : (s.owner.referenceCompletion.filter fun r =>
      s.owner.referenceGenerationCurrent r && completionMatches r terminal) with
  | none => exact cancel_bind h fun s₁ h => fail_reject _ _ (.inr (.inr (.inl rfl))) h
  | some r =>
    obtain ⟨hreserved, hvalid⟩ := Option.filter_eq_some_iff.1 hcurrent
    rw [Bool.and_eq_true] at hvalid
    dsimp only
    generalize hrecords : 1 + (if r.fact.isSome = true then 1 else 0) = records
    have hunsent : r.accepted = none := by
      have hmatch := hvalid.2
      simp only [completionMatches, Bool.and_eq_true, Option.isNone_iff_eq_none] at hmatch
      exact hmatch.1.1.1.1.1.1
    have hrecords_le : 1 ≤ records := by omega
    have hunused : s.owner.unusedReference = ⟨1, completionRecords, completionBytes layout⟩ := by
      unfold RecorderWorker.unusedReference
      rw [hreserved]
      simp [ReferenceReservation.unused, hunsent]
    cases hplan : s.owner.plannedRange records with
    | none => exact cancel_bind h fun s₁ _ => .refl
    | some range =>
      obtain ⟨first, last⟩ := range
      dsimp only
      have hsurplus : s.owner.Sound → s.owner.referenceCredit.contains ⟨0, completionRecords - records, 0⟩ = true :=
        fun hsound => by
          have hle := Credit.contains_iff.1 hsound.unused
          rw [hunused] at hle
          rw [Credit.contains_iff]
          dsimp only at hle ⊢
          omega
      refine expect_bind (fun hnone hsound => Credit.delta_eq_none.1 hnone (hsurplus hsound)) fun referenceCredit href => ?_
      refine expect_bind (fun hnone hsound => Credit.delta_eq_none.1 hnone ?_) fun charged hcharged => ?_
      · have hle := Credit.contains_iff.1 hsound.reference
        have hle' := Credit.contains_iff.1 (hsurplus hsound)
        rw [Credit.contains_iff]
        omega
      have hunavailable : ∀ s₁, Granted A s₁ completionActs → s₁.owner = s.owner → ∀ gap : RecorderGap,
          gap.valid = true → Path A s₁ ((do
          releaseUnusedReference ⟨1, completionRecords, completionBytes layout⟩ fun o =>
            { o with referenceCompletion := none }
          failWithGap gap
          reject "Reference completion FIFO unavailable" : Step layout Unit).run s₁).2 := fun s₁ h howner gap hgap => by
        have hrelease : ∀ {B : System layout → Act → Prop}, Path B s₁ ((releaseUnusedReference
            ⟨1, completionRecords, completionBytes layout⟩ fun o => { o with referenceCompletion := none }).run s₁).2 := by
          refine releaseUnusedReference_path r none _ (by rw [howner]; exact hreserved) ?_
          simp [ReferenceReservation.unused, hunsent]
        refine Procedure.Moves.bind_at hrelease fun _ s₂ hrun => ?_
        have hcalm : Path Calm s₁ s₂ := by simpa only [hrun] using hrelease (B := Calm)
        exact gap_reject _ _ hgap (h.next hcalm) fun _ hact => .inr (.inr hact)
      have hgap : ∀ submittedAt, RecorderGap.valid
          { reason := "Reference completion FIFO unavailable", time := submittedAt
            firstMissingFact := r.fact.map Fact.sequence, knownMissingCount := some records
            lastAcceptedFact := s.owner.lastAcceptedFact } = true := fun submittedAt => by
        simp only [RecorderGap.valid, Option.all_some, Bool.and_eq_true, decide_eq_true_eq]
        exact ⟨by decide, by omega⟩
      refine transfer_bind (.referenceCompletion r terminal records first last referenceCredit charged hreserved hvalid.1
        hvalid.2 hrecords.symm href hcharged hplan) h (.inl ⟨_, _, _, _, _, rfl⟩) (fun _ => .refl)
        (fun s₁ h howner _ => ?_) fun s₁ h howner _ => ?_
      · exact hunavailable s₁ h howner _ (hgap _)
      · exact hunavailable s₁ h howner _ (hgap _)

/-! ### History jobs -/

theorem drain_bind {α : Type} {f : Unit → Step layout α} (h : Granted A s acts)
    (hf : ∀ s₁, Granted A s₁ acts → Path A s₁ ((f ()).run s₁).2) :
    Path A s ((drainHistoryCancellations >>= f).run s).2 := by
  have hpath := drainHistoryCancellations_path s
  refine Procedure.Moves.bind_at (h.quiet hpath) fun _ s₁ hrun => hf s₁ (h.next ?_)
  rw [hrun] at hpath
  exact hpath.calm

theorem lock_bind {α : Type} {f : Bool → Step layout α} (h : Granted A s acts)
    (hf : ∀ taken s₁, Granted A s₁ acts → Path A s₁ ((f taken).run s₁).2) :
    Path A s ((tryLock >>= f).run s).2 := by
  obtain ⟨taken, schedule, hlock⟩ := run_tryLock s
  have hpath := locked_path s schedule
  rw [Procedure.run_bind_ok hlock]
  exact (h.quiet hpath).trans (hf taken _ (h.next hpath.calm))

theorem requestJob_path (message : ℕ → Message)
    (hoffer : ∀ (o : RecorderWorker layout) job following live,
      o.Offer (message job) { o with nextHistoryJob := following, liveHistoryJobs := live })
    (h : Granted A s fun act => ∃ job, act = .send (message job)) : Path A s ((requestJob message).run s).2 := by
  unfold requestJob
  rw [Procedure.run_bind_ok (run_owner s)]
  generalize s.owner.nextHistoryJob = job
  cases checkedAdd job 1 with
  | none => exact .refl
  | some following =>
    refine lock_bind h fun taken s h => ?_
    cases taken with
    | false => exact .refl
    | true =>
      rw [if_neg (by simp), Procedure.run_get_bind]
      split_ifs
      · exact .refl
      rw [Procedure.run_modify_bind]
      have hslots : ∀ {B : System layout → Act → Prop}, Micro B s { s with storage := { s.storage with
          activeHistoryJobs := s.storage.activeHistoryJobs.insert job } } := fun {B} => .slots _ _ _
      refine Relation.ReflTransGen.head hslots (transfer_bind (hoffer _ job following _) (h.next (.single hslots))
        ⟨job, rfl⟩ (fun _ => .refl) (fun s₁ _ _ _ => ?_) fun s₁ _ _ _ => ?_)
      · exact .single (.slots _ s₁.storage.historyMailbox s₁.storage.runsMailbox)
      · exact .single (.slots _ s₁.storage.historyMailbox s₁.storage.runsMailbox)

theorem requestHistory_path (filter : HistoryFilter) (limit : ℕ)
    (h : Granted A s fun act => ∃ job, act = .send (.history job)) :
    Path A s ((requestHistory filter limit).run s).2 := by
  refine drain_bind h fun s h => ?_
  rw [Procedure.run_bind_ok (run_owner s)]
  split_ifs
  · exact .refl
  · exact .refl
  · exact requestJob_path .history (fun _ job following live => .history job following live) h

theorem requestRuns_path (limit : ℕ) (h : Granted A s fun act => ∃ job, act = .send (.runs job)) :
    Path A s ((requestRuns limit).run s).2 := by
  refine drain_bind h fun s h => ?_
  rw [Procedure.run_bind_ok (run_owner s)]
  split_ifs
  · exact .refl
  · exact requestJob_path .runs (fun _ job following live => .runs job following live) h
  · exact .refl

theorem takePage_path (mailbox : Storage → List ℕ) (without : Storage → Storage) (job : ℕ)
    (hwithout : ∀ storage : Storage, ∃ history runs,
      without storage = { storage with historyMailbox := history, runsMailbox := runs })
    (h : Granted A s acts) : Path A s ((takePage mailbox without job).run s).2 := by
  refine drain_bind h fun s h => ?_
  rw [Procedure.run_bind_ok (run_owner s)]
  split_ifs
  · exact .refl
  refine lock_bind h fun taken s h => ?_
  cases taken with
  | false => exact .refl
  | true =>
    refine lock_bind h fun taken s h => ?_
    cases taken with
    | false => exact .refl
    | true =>
      rw [if_neg (by simp), Procedure.run_get_bind]
      split_ifs
      · obtain ⟨history, runs, heq⟩ := hwithout s.storage
        rw [Procedure.run_modify_bind]
        dsimp only
        rw [heq]
        exact (Relation.ReflTransGen.single (.slots _ history runs)).tail (.changed _ (.jobs _ s.owner.pendingCancellations))
      · exact .refl

theorem tryTakeHistory_path (job : ℕ) (h : Granted A s acts) : Path A s ((tryTakeHistory job).run s).2 :=
  takePage_path _ _ job (fun storage => ⟨_, storage.runsMailbox, rfl⟩) h

theorem tryTakeRuns_path (job : ℕ) (h : Granted A s acts) : Path A s ((tryTakeRuns job).run s).2 :=
  takePage_path _ _ job (fun storage => ⟨storage.historyMailbox, _, rfl⟩) h

theorem cancelHistory_path (job : ℕ) (h : Granted A s acts) : Path A s ((cancelHistory job).run s).2 := by
  unfold cancelHistory
  rw [Procedure.run_bind_ok (run_owner s)]
  split_ifs
  · have hjobs : ∀ {B : System layout → Act → Prop}, Micro B s { s with owner := { s.owner with
        liveHistoryJobs := s.owner.liveHistoryJobs.erase job
        pendingCancellations := s.owner.pendingCancellations.insert job } } := fun {B} => .changed _ (.jobs _ _)
    rw [Procedure.run_bind_ok (run_update _ s)]
    exact Relation.ReflTransGen.head hjobs ((h.next (.single hjobs)).quiet (drainHistoryCancellations_path _))
  · exact .refl

/-! ### Runs of calls -/

/-- What a call may do beyond polling and failing. -/
def Call.grants : Call → Act → Prop
  | .requestActivation root => (· = .send (.activation root none))
  | .tryReserveLiveActivation _ => (· = .reserve)
  | .commitReservedLiveActivation _ _ _ => fun act => ∃ root live, act = .send (.activation root (some live))
  | .requestStart label submittedAt boundary => fun act =>
    ∃ policy first, act = .send (.start label policy submittedAt boundary first)
  | .requestStop summary requestedAt => fun act => ∃ first, act = .send (.stop summary requestedAt first)
  | .requestProbe submittedAt => (· = .send (.probe submittedAt))
  | .requestFinish summary time => fun act => ∃ first, act = .send (.finish summary time first)
  | .tryAdmitAt group submittedAt => groupActs group submittedAt
  | .tryAdmitOperation operation => operationActs operation
  | Call.tryAdmitAnnotation note => annotationActs note
  | .reserveFactGroup => (· = .reserve)
  | .admitReservedFacts _ group time => groupActs group time
  | .reserveReferenceOperation _ => (· = .reserve)
  | .commitReferenceAcceptance _ => acceptanceActs
  | .captureReferenceCompletion _ _ => reportsGap
  | .commitReferenceCompletion _ => completionActs
  | .failWithGap gap => gapActs gap
  | .requestHistory _ _ => fun act => ∃ job, act = .send (.history job)
  | .requestRuns _ => fun act => ∃ job, act = .send (.runs job)
  | _ => fun _ => False

theorem run_discard {α : Type} (x : Step layout α) (s : System layout) : ((discard x).run s).2 = (x.run s).2 :=
  Procedure.run_bind_pure x (fun _ => ()) s

/-- A call is a path of moves. -/
theorem perform_path (call : Call) (h : Granted A s call.grants) : Path A s ((perform call).run s).2 := by
  cases call with
  | requestActivation root => exact requestActivation_path root h
  | tryReserveLiveActivation lifecycle =>
    exact (run_discard _ s).symm ▸ tryReserveLiveActivation_path lifecycle h
  | commitReservedLiveActivation generation root lifecycle =>
    refine commitReservedLiveActivation_path generation root lifecycle (h.subset ?_)
    rintro act ⟨live, rfl⟩
    exact ⟨root, live, rfl⟩
  | cancelLiveActivationReservation generation => exact cancelLiveActivationReservation_path generation
  | configurePolicy policy => exact configurePolicy_path policy h
  | requestStart label submittedAt boundary => exact requestStart_path label submittedAt boundary h
  | requestStop summary requestedAt => exact requestStop_path summary requestedAt h
  | requestProbe submittedAt => exact requestProbe_path submittedAt h
  | requestFinish summary time => exact requestFinish_path summary time h
  | poll => exact (run_discard Recorder.poll s).symm ▸ h.quiet (poll_path s).1
  | reconcileReceipt published =>
    change Path A s ((discard (Recorder.reconcileReceipt _)).run s).2
    rw [run_discard]
    refine h.quiet (reconcileReceipt_path _ fun receipt hreceipt => .inr ?_).1
    obtain ⟨n, -, hn⟩ := Option.bind_eq_some_iff.1 hreceipt
    exact List.mem_of_getElem? hn
  | tryAdmitAt group submittedAt => exact (run_discard _ s).symm ▸ tryAdmitAt_path group submittedAt h
  | tryAdmitOperation operation => exact tryAdmitOperation_path operation h
  | operationCreditAvailable operation => exact (run_discard _ s).symm ▸ operationCreditAvailable_path operation h
  | tryAdmitAnnotation note => exact (run_discard _ s).symm ▸ tryAdmitAnnotation_path note h
  | reserveFactGroup => exact (run_discard (Recorder.reserveFactGroup : Step layout (Option ℕ)) s).symm ▸ reserveFactGroup_path h
  | cancelFactGroup token => exact cancelFactGroup_path token
  | admitReservedFacts token group time => exact admitReservedFacts_path token group time h
  | reserveReferenceOperation accepted => exact (run_discard _ s).symm ▸ reserveReferenceOperation_path accepted h
  | referenceCompletionReady scope seq command =>
    exact (run_discard _ s).symm ▸ referenceCompletionReady_path scope seq command h
  | cancelReferenceReservation => exact cancelReferenceReservation_path
  | commitReferenceAcceptance operation => exact commitReferenceAcceptance_path operation h
  | captureReferenceCompletion facts time => exact captureReferenceCompletion_path facts time h
  | commitReferenceCompletion terminal => exact commitReferenceCompletion_path terminal h
  | failWithGap gap => exact failWithGap_path gap h
  | requestHistory filter limit => exact (run_discard _ s).symm ▸ requestHistory_path filter limit h
  | requestRuns limit => exact (run_discard _ s).symm ▸ requestRuns_path limit h
  | tryTakeHistory job => exact (run_discard _ s).symm ▸ tryTakeHistory_path job h
  | tryTakeRuns job => exact (run_discard _ s).symm ▸ tryTakeRuns_path job h
  | cancelHistory job => exact cancelHistory_path job h

/-- What an event needs of the premise. -/
def System.Grants (A : System layout → Act → Prop) (s : System layout) : Event → Prop
  | .call schedule call => Granted A { s with schedule } call.grants
  | .worker move => A s (.worker move)

theorem System.step_path (event : Event) (h : s.Grants A event) : Path A s (s.step event) := by
  cases event with
  | call schedule call => exact Relation.ReflTransGen.head (.scheduled schedule) (perform_path call h)
  | worker move => exact .single (.worker move h)

theorem System.step_free (event : Event) : Path Free s (s.step event) :=
  s.step_path event (by cases event <;> simp [System.Grants, Granted, Free])

/-- A state of a run, also within a call. -/
def Reachable (limits : RecorderLimits) (now : ℕ) (s : System layout) : Prop := Path Free (.opened limits now) s

theorem reachable_after (limits : RecorderLimits) (now : ℕ) (events : List Event) :
    Reachable limits now (History.after System.step (.opened limits now : System layout) events) := by
  have hstable : History.Stable System.step (@Reachable layout limits now) :=
    fun s event hs => hs.trans (s.step_free event)
  exact hstable.after .refl events

/-- An invariant of every move holds of every state of every run. -/
theorem Reachable.keeps {limits : RecorderLimits} {now : ℕ} {I : System layout → Prop}
    (hI : ∀ s s', Micro Free s s' → I s → I s') (hopened : I (.opened limits now)) (h : Reachable limits now s) : I s :=
  Path.keeps hI h hopened

end LabRuntime.Recorder
