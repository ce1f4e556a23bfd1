import LabRuntime.Recorder.Moves

/-! Waiting, failing, reading receipts and polling are quiet paths. -/

namespace LabRuntime.Recorder

variable {layout : FactLayout} {A : System layout → Act → Prop} {s s' : System layout}

instance : Std.Refl (Path A) := ⟨fun _ => .refl⟩
instance : IsTrans (System layout) (Path A) := ⟨fun _ _ _ => .trans⟩

/-- What a premise must hold of for a call that starts in `s` and does what `acts` says. -/
def Granted (A : System layout → Act → Prop) (s : System layout) (acts : Act → Prop) : Prop :=
  ∀ s' act, Path Calm s s' → act.quiet = true ∨ acts act → A s' act

variable {acts : Act → Prop}

theorem Granted.quiet (h : Granted A s acts) (path : Path Quiet s s') : Path A s s' :=
  path.grant fun s' act hpath hact => h s' act hpath.calm (.inl hact)

theorem Granted.next (h : Granted A s acts) (path : Path Calm s s') : Granted A s' acts :=
  fun s'' act hpath hact => h s'' act (path.trans hpath) hact

theorem Granted.subset {acts' : Act → Prop} (h : Granted A s acts) (hacts : ∀ act, acts' act → acts act) :
    Granted A s acts' := fun s' act hpath hact => h s' act hpath (hact.imp_right (hacts act))

theorem granted_quiet : Granted Quiet s fun _ => False := fun _ _ _ hact => hact.elim id False.elim

/-! ### The worker's moves -/

theorem Storage.work_finished (s : Storage) (move : WorkerMove) (h : s.finished = true) :
    (s.work move).finished = true := by
  refine Storage.work_keeps (·.finished = true) move h (fun s' hworked => ?_) fun s' _ hbroken => ?_
  · cases hworked <;> first | exact h | rfl
  · cases hbroken <;> exact h

theorem Storage.work_alive (s : Storage) (move : WorkerMove) (h : s.alive = false) :
    (s.work move).alive = false := by
  refine Storage.work_keeps (·.alive = false) move h (fun s' hworked => ?_) fun s' _ hbroken => ?_
  · cases hworked <;> first | exact h | rfl
  · cases hbroken <;> exact h

/-- The system after the worker has taken its next moves. -/
def System.yielded (s : System layout) : System layout :=
  { s with
    storage := (s.schedule.moves.headD []).foldl Storage.work s.storage
    schedule := { s.schedule with moves := s.schedule.moves.tail } }

theorem run_yield (s : System layout) : (yield : Step layout Unit).run s = (.ok (), s.yielded) := rfl

theorem work_path (moves : List WorkerMove) (s : System layout) :
    Path Quiet s { s with storage := moves.foldl Storage.work s.storage } := by
  induction moves generalizing s with
  | nil => exact .refl
  | cons move moves ih => exact (Relation.ReflTransGen.single (.worker move rfl)).trans (ih _)

theorem yielded_path (s : System layout) : Path Quiet s s.yielded :=
  (work_path _ s).tail (.scheduled _)

theorem yielded_finished (h : s.storage.finished = true) : s.yielded.storage.finished = true := by
  unfold System.yielded
  dsimp only
  generalize s.schedule.moves.headD [] = moves
  generalize s.storage = storage at h ⊢
  induction moves generalizing storage with
  | nil => exact h
  | cons move moves ih => exact ih _ (storage.work_finished move h)

theorem yielded_alive (h : s.storage.alive = false) : s.yielded.storage.alive = false := by
  unfold System.yielded
  dsimp only
  generalize s.schedule.moves.headD [] = moves
  generalize s.storage = storage at h ⊢
  induction moves generalizing storage with
  | nil => exact h
  | cons move moves ih => exact ih _ (storage.work_alive move h)

/-- A lock is taken or not; meanwhile the worker moves and the owner does not. -/
theorem run_tryLock (s : System layout) : ∃ taken schedule,
    (tryLock : Step layout Bool).run s = (.ok taken, { s.yielded with schedule }) := ⟨_, _, rfl⟩

theorem locked_path (s : System layout) (schedule : Schedule) : Path Quiet s { s.yielded with schedule } :=
  (yielded_path s).tail (.scheduled schedule)

/-- The receipt is the one the worker has published, if it is read at all. -/
theorem run_cloneReceipt (s : System layout) : ∃ receipt schedule,
    (cloneReceipt : Step layout (Option Receipt)).run s = (.ok receipt, { s.yielded with schedule }) ∧
      (receipt = none ∨ receipt = some s.yielded.storage.receipt) := by
  obtain ⟨taken, schedule, hlock⟩ := run_tryLock s
  unfold cloneReceipt
  rw [Procedure.run_bind_ok hlock]
  cases taken with
  | true => exact ⟨_, schedule, rfl, .inr rfl⟩
  | false => exact ⟨_, schedule, rfl, .inl rfl⟩

/-! ### Failures and transfers -/

theorem run_owner (s : System layout) : (owner : Step layout (RecorderWorker layout)).run s = (.ok s.owner, s) := rfl

theorem run_update (f : RecorderWorker layout → RecorderWorker layout) (s : System layout) :
    (update f).run s = (.ok (), { s with owner := f s.owner }) := rfl

theorem run_expect_some {α : Type} (a : α) (s : System layout) : (expect (some a)).run s = (.ok a, s) := rfl

theorem run_expect_none {α : Type} (s : System layout) :
    (expect (none : Option α)).run s = (.error .panicked, { s with panicked := true }) := rfl

/-- A failure is noted by the owner, and in the receipt where its lock is free. -/
theorem run_fail (message : StorageError) (s : System layout) : ∃ s',
    (fail message : Step layout Unit).run s = (.ok (), s') ∧ s'.owner = s.owner.failing message ∧
      Path Quiet { s with owner := s.owner.failing message } s' := by
  unfold fail
  rw [Procedure.run_bind_ok (run_update _ s)]
  obtain ⟨taken, schedule, hlock⟩ := run_tryLock { s with owner := s.owner.failing message }
  rw [Procedure.run_bind_ok hlock]
  have hpath := locked_path { s with owner := s.owner.failing message } schedule
  cases taken with
  | true => exact ⟨_, rfl, rfl, hpath.tail (.marked message rfl)⟩
  | false => exact ⟨_, rfl, rfl, hpath⟩

theorem fail_path (message : StorageError) (cause : Cause s ∨ acts .misuse) (h : Granted A s acts) :
    Path A s ((fail message).run s).2 := by
  obtain ⟨s', hrun, -, hpath⟩ := run_fail message s
  rw [hrun]
  have hcalm : Path Calm s { s with owner := s.owner.failing message } :=
    .single (.failed message (cause.imp_right fun _ => .inr (.inl rfl)) (.inl rfl))
  exact .head (.failed message (cause.imp_right fun hact => h s _ .refl (.inr hact)) (h s _ .refl (.inl rfl)))
    ((h.next hcalm).quiet hpath)

/-- What a transfer leaves: the message in the channel and the owner's notes, or neither. -/
theorem run_transfer (message : Message) (accepted : RecorderWorker layout → RecorderWorker layout)
    (s : System layout) (offer : s.owner.Offer message (accepted s.owner)) :
    (∃ s₁ : System layout, (transfer message accepted).run s = (.ok .sent, { s₁ with
          owner := accepted s.owner, storage := { s₁.storage with queue := s₁.storage.queue ++ [message] } }) ∧
        Path Quiet s s₁ ∧ s₁.owner = s.owner ∧ s₁.storage.phase.receiving = true ∧
        s₁.storage.queue.length < fifoCapacity) ∨
      (∃ s₁ : System layout, (transfer message accepted).run s = (.ok .full, s₁) ∧ Path Quiet s s₁ ∧
        s₁.owner = s.owner ∧ fifoCapacity ≤ s₁.storage.queue.length) ∨
      ∃ s₁ : System layout, (transfer message accepted).run s = (.ok .disconnected, s₁) ∧ Path Quiet s s₁ ∧
        s₁.owner = s.owner ∧ s₁.storage.phase.receiving = false := by
  unfold transfer
  rw [Procedure.run_bind_ok (run_yield s), Procedure.run_get_bind]
  have hpath := yielded_path s
  cases hreceiving : s.yielded.storage.phase.receiving with
  | false => exact .inr (.inr ⟨s.yielded, rfl, hpath, rfl, hreceiving⟩)
  | true =>
    by_cases hfull : fifoCapacity ≤ s.yielded.storage.queue.length
    · rw [if_neg (by simp), if_pos hfull]
      exact .inr (.inl ⟨_, rfl, hpath.tail (.refused message _ offer rfl hreceiving hfull), rfl, hfull⟩)
    · rw [if_neg (by simp), if_neg hfull]
      exact .inl ⟨s.yielded, rfl, hpath, rfl, hreceiving, by omega⟩

theorem transfer_path (message : Message) (accepted : RecorderWorker layout → RecorderWorker layout)
    (offer : s.owner.Offer message (accepted s.owner)) (h : Granted A s acts) (hact : acts (.send message)) :
    Path A s ((transfer message accepted).run s).2 := by
  obtain ⟨s₁, hrun, hpath, howner, hreceiving, hroom⟩ | ⟨s₁, hrun, hpath, -⟩ | ⟨s₁, hrun, hpath, -⟩ :=
    run_transfer message accepted s offer
  · rw [hrun]
    refine (h.quiet hpath).tail (.sent message _ ?_ (h s₁ _ hpath.calm (.inr hact)) hreceiving hroom)
    rwa [howner]
  · rw [hrun]
    exact h.quiet hpath
  · rw [hrun]
    exact h.quiet hpath

theorem transfer_owner (message : Message) (accepted : RecorderWorker layout → RecorderWorker layout)
    (offer : s.owner.Offer message (accepted s.owner)) :
    ((transfer message accepted).run s).2.owner = accepted s.owner ∨
      ((transfer message accepted).run s).2.owner = s.owner := by
  obtain ⟨s₁, hrun, -⟩ | ⟨s₁, hrun, -, howner, -⟩ | ⟨s₁, hrun, -, howner, -⟩ := run_transfer message accepted s offer
  · exact .inl (by rw [hrun])
  · exact .inr (by rw [hrun, howner])
  · exact .inr (by rw [hrun, howner])

/-- A control message is sent, or the recorder fails. -/
theorem sendControl_path (message : Message) (accepted : RecorderWorker layout → RecorderWorker layout)
    (offer : s.owner.Offer message (accepted s.owner)) (h : Granted A s acts) (hact : acts (.send message)) :
    Path A s ((sendControl message accepted).run s).2 := by
  have hfails : ∀ s₁ : System layout, Path Quiet s s₁ → Cause s₁ →
      Path A s ((do fail "recorder lifecycle slot unavailable"; reject "recorder lifecycle slot unavailable" :
        Step layout Unit).run s₁).2 := fun s₁ hpath cause => by
    obtain ⟨s₂, hrun, -, hfailed⟩ := @run_fail layout "recorder lifecycle slot unavailable" s₁
    rw [Procedure.run_bind_ok hrun]
    exact h.quiet ((hpath.tail (.failed _ (.inl cause) rfl)).trans hfailed)
  unfold sendControl
  obtain ⟨s₁, hrun, hpath, howner, hreceiving, hroom⟩ | ⟨s₁, hrun, hpath, howner, hfull⟩ | ⟨s₁, hrun, hpath, howner, hdown⟩ :=
    run_transfer message accepted s offer
  · rw [Procedure.run_bind_ok hrun]
    refine (h.quiet hpath).tail (.sent message _ ?_ (h s₁ _ hpath.calm (.inr hact)) hreceiving hroom)
    rwa [howner]
  · rw [Procedure.run_bind_ok hrun]
    exact hfails s₁ hpath (.full hfull)
  · rw [Procedure.run_bind_ok hrun]
    exact hfails s₁ hpath (.down (.inr (.inr hdown)))

/-- The acts of a gap: the failure and its seal, or a failure that the caller's gap is to blame for. -/
def gapActs (gap : RecorderGap) (act : Act) : Prop :=
  (∃ first, act = .send (.gapSeal gap first)) ∨ act = .gap ∨ gap.valid = false ∧ act = .misuse

/-- A gap is noted once, and its seal is sent where a record number is left. -/
theorem failWithGap_path (gap : RecorderGap) (h : Granted A s (gapActs gap)) :
    Path A s ((failWithGap gap).run s).2 := by
  unfold failWithGap
  rw [Procedure.run_bind_ok (run_owner s)]
  by_cases hdone : s.owner.gapScheduled = true ∨ s.owner.cached.state = .failed
  · rw [if_pos hdone]
    exact .refl
  rw [if_neg hdone]
  obtain ⟨hfresh, hlive⟩ : s.owner.gapScheduled = false ∧ s.owner.cached.state ≠ .failed := by
    simpa only [not_or, Bool.not_eq_true] using hdone
  cases hvalid : gap.valid with
  | false =>
    rw [if_pos (by simp)]
    exact fail_path _ (.inr (.inr (.inr ⟨hvalid, rfl⟩))) h
  | true =>
    rw [if_neg (by simp), Procedure.run_bind_ok (run_update _ s)]
    obtain ⟨s₁, hrun, howner, hpath⟩ := run_fail gap.reason { s with owner := s.owner.noteGap gap }
    rw [Procedure.run_bind_ok hrun, Procedure.run_bind_ok (run_owner s₁)]
    have hcalm : Path Calm s { s with owner := (s.owner.noteGap gap).failing gap.reason } :=
      .single (.gapFailed gap hfresh hlive hvalid (.inr (.inr rfl)))
    have hnoted : Path A s s₁ :=
      .head (.gapFailed gap hfresh hlive hvalid (h s _ .refl (.inr (.inr (.inl rfl))))) ((h.next hcalm).quiet hpath)
    cases hplan : s₁.owner.plannedRange 1 with
    | none => exact hnoted
    | some range =>
      obtain ⟨first, last⟩ := range
      refine hnoted.trans ?_
      dsimp only
      rw [Procedure.run_bind_pure _ (fun _ => ())]
      refine transfer_path _ _ (.gapSeal gap first last ?_ ?_ ?_ hvalid hplan) (h.next (hcalm.trans hpath.calm))
        (.inl ⟨first, rfl⟩)
      · rw [howner]; exact hfresh
      · rw [howner]; rfl
      · rw [howner]; rfl

/-! ### Receipts -/

theorem Credit.contains_of_le {a b c d : Credit} (hab : a = b + c) (h : c.contains d = true) : a.contains d = true := by
  have hle := Credit.contains_iff.1 h
  subst hab
  simp only [Credit.contains_iff, Credit.add_groups, Credit.add_records, Credit.add_bytes]
  omega

/-- The credit of a receipt is released where it was charged; what could not be subtracted would be
a panic. -/
theorem releaseReceipt_path (receipt : Receipt)
    (hadopt : ∀ total reference charged referenceCredit,
      s.owner.Released receipt total reference charged referenceCredit →
        Path Quiet s { s with owner := { s.owner with charged, referenceCredit }.adopt receipt })
    (hfails : ∀ message, (∀ total reference charged referenceCredit,
      ¬ s.owner.Released receipt total reference charged referenceCredit) →
        Path Quiet s ((fail message : Step layout Unit).run s).2) :
    Path Quiet s ((releaseReceipt receipt).run s).2 := by
  unfold releaseReceipt
  rw [Procedure.run_bind_ok (run_owner s)]
  cases htotal : receipt.released.delta s.owner.seenReleased with
  | none =>
    refine hfails _ fun total _ _ _ h => ?_
    rw [h.totalReleased, Credit.add_delta] at htotal
    cases htotal
  | some total =>
  have hreleased := Credit.delta_eq_some.1 htotal
  have htotal_eq : ∀ {total' reference charged referenceCredit},
      s.owner.Released receipt total' reference charged referenceCredit → total' = total := fun h =>
    add_left_cancel (h.totalReleased.symm.trans hreleased)
  cases hreference : receipt.referenceReleased.delta s.owner.seenReferenceReleased with
  | none =>
    refine hfails _ fun _ reference _ _ h => ?_
    rw [h.referenceReleased, Credit.add_delta] at hreference
    cases hreference
  | some reference =>
  have hreferenceReleased := Credit.delta_eq_some.1 hreference
  have hreference_eq : ∀ {total reference' charged referenceCredit},
      s.owner.Released receipt total reference' charged referenceCredit → reference' = reference := fun h =>
    add_left_cancel (h.referenceReleased.symm.trans hreferenceReleased)
  dsimp only
  cases hordinaryCredit : s.owner.charged.delta s.owner.referenceCredit with
  | none =>
    rw [Procedure.run_bind_error (run_expect_none s)]
    exact .single (.panicked fun hsound => Credit.delta_eq_none.1 hordinaryCredit hsound.reference)
  | some ordinaryCredit =>
  rw [Procedure.run_bind_ok (run_expect_some _ s)]
  cases hcharged : s.owner.charged.delta total with
  | none =>
    refine hfails _ fun total' _ charged _ h => ?_
    rw [h.taken, htotal_eq h, Credit.add_delta] at hcharged
    cases hcharged
  | some charged =>
  cases hordinary : total.delta reference with
  | none =>
    refine hfails _ fun _ _ _ _ h => ?_
    obtain ⟨ordinary, _, heq, -⟩ := h.ordinary
    rw [htotal_eq h, hreference_eq h] at heq
    rw [heq, Credit.add_delta] at hordinary
    cases hordinary
  | some ordinary =>
  dsimp only
  have hrun : (submittedReferenceCredit : Step layout Credit).run s =
      (expect (s.owner.referenceCredit.delta s.owner.unusedReference)).run s := rfl
  cases hsubmitted : s.owner.referenceCredit.delta s.owner.unusedReference with
  | none =>
    rw [hsubmitted] at hrun
    rw [Procedure.run_bind_error hrun]
    exact .single (.panicked fun hsound => Credit.delta_eq_none.1 hsubmitted hsound.unused)
  | some submitted =>
  rw [hsubmitted] at hrun
  rw [Procedure.run_bind_ok hrun]
  by_cases hfits : submitted.contains reference = true ∧ ordinaryCredit.contains ordinary = true
  · rw [if_pos hfits]
    have hunused := Credit.delta_eq_some.1 hsubmitted
    cases hrest : s.owner.referenceCredit.delta reference with
    | none =>
      exact absurd (Credit.contains_of_le hunused hfits.1) (Credit.delta_eq_none.1 hrest)
    | some referenceCredit =>
      rw [Procedure.run_bind_ok (run_expect_some _ s)]
      refine hadopt total reference charged referenceCredit ?_
      exact ⟨hreleased, hreferenceReleased, Credit.delta_eq_some.1 hcharged,
        ⟨ordinary, ordinaryCredit, Credit.delta_eq_some.1 hordinary, Credit.delta_eq_some.1 hordinaryCredit, hfits.2⟩,
        ⟨submitted, hunused, hfits.1⟩, Credit.delta_eq_some.1 hrest⟩
  · rw [if_neg hfits]
    refine hfails _ fun _ _ _ _ h => hfits ⟨?_, ?_⟩
    · obtain ⟨submitted', heq, hcontains⟩ := h.submitted
      rw [hreference_eq h] at hcontains
      obtain rfl : submitted' = submitted := add_left_cancel (heq.symm.trans (Credit.delta_eq_some.1 hsubmitted))
      exact hcontains
    · obtain ⟨ordinary', ordinaryCredit', heq, hcredit, hcontains⟩ := h.ordinary
      rw [htotal_eq h, hreference_eq h] at heq
      obtain rfl : ordinary' = ordinary := add_left_cancel (heq.symm.trans (Credit.delta_eq_some.1 hordinary))
      obtain rfl : ordinaryCredit' = ordinaryCredit :=
        add_left_cancel (hcredit.symm.trans (Credit.delta_eq_some.1 hordinaryCredit))
      exact hcontains

/-- The owner adopts a published receipt, ignores it, or fails. -/
theorem applyReceipt_path (receipt : Receipt) (hshown : s.storage.Shown receipt) :
    Path Quiet s ((applyReceipt receipt).run s).2 := by
  have hfails : ∀ message, (∀ charged referenceCredit, ¬ s.owner.Adoptable receipt charged referenceCredit) →
      s.owner.cached.persistedThroughSequence ≤ receipt.persisted →
      Path Quiet s ((fail message : Step layout Unit).run s).2 := fun message hnot hcurrent =>
    fail_path message (.inl (.receipt receipt hshown hnot hcurrent)) granted_quiet
  unfold applyReceipt
  rw [Procedure.run_bind_ok (run_owner s)]
  by_cases hstale : receipt.persisted < s.owner.cached.persistedThroughSequence
  · rw [if_pos hstale]
    exact .refl
  rw [if_neg hstale]
  have hcurrent := Nat.le_of_not_lt hstale
  by_cases hfuture : s.owner.reservedThrough < receipt.persisted
  · rw [if_pos hfuture]
    exact hfails _ (fun _ _ h => absurd h.reserved (Nat.not_le_of_lt hfuture)) hcurrent
  rw [if_neg hfuture]
  by_cases hsubmission : (receipt.confirmedSubmission.any fun confirmed =>
      s.owner.lastOwnerSubmission.all (· < confirmed)) = true
  · rw [if_pos hsubmission]
    refine hfails _ (fun _ _ h => ?_) hcurrent
    cases hconfirmed : receipt.confirmedSubmission with
    | none => simp [hconfirmed] at hsubmission
    | some confirmed =>
      obtain ⟨latest, hlatest, hle⟩ := h.submitted confirmed hconfirmed
      simp only [hconfirmed, hlatest, Option.any_some, Option.all_some, decide_eq_true_eq] at hsubmission
      omega
  rw [if_neg hsubmission]
  have hsubmitted : ∀ confirmed, receipt.confirmedSubmission = some confirmed →
      ∃ latest, s.owner.lastOwnerSubmission = some latest ∧ confirmed ≤ latest := fun confirmed hconfirmed => by
    cases hlatest : s.owner.lastOwnerSubmission with
    | none => simp [hconfirmed, hlatest] at hsubmission
    | some latest =>
      simp only [hconfirmed, hlatest, Option.any_some, Option.all_some, decide_eq_true_eq] at hsubmission
      exact ⟨latest, rfl, by omega⟩
  by_cases hbehind : RecorderWorker.earlier receipt.confirmedSubmission s.owner.cached.confirmedSubmission = true
  · rw [if_pos hbehind]
    exact .refl
  rw [if_neg hbehind]
  refine releaseReceipt_path receipt (fun total reference charged referenceCredit h => ?_) fun message hnot => ?_
  · exact .single (.adopted receipt charged referenceCredit hshown
      ⟨hcurrent, Nat.le_of_not_lt hfuture, hsubmitted, by simpa using hbehind, total, reference, h⟩)
  · refine hfails message (fun charged referenceCredit h => ?_) hcurrent
    obtain ⟨total, reference, h⟩ := h.released
    exact hnot _ _ _ _ h

theorem Micro.alive (h : Micro A s s') (hs : s.storage.alive = false) : s'.storage.alive = false := by
  cases h with
  | worker move => exact s.storage.work_alive move hs
  | _ => exact hs

/-- A worker seen closed has ended, unless the owner has failed on its panic. -/
theorem observeWorker_path (s : System layout) : Path Quiet s ((observeWorker : Step layout Bool).run s).2 ∧
    ∀ s', (observeWorker : Step layout Bool).run s = (.ok true, s') →
      s'.owner.cached.state = .failed ∨ s'.storage.alive = false := by
  unfold observeWorker
  rw [Procedure.run_bind_ok (run_yield s), Procedure.run_get_bind, Procedure.run_bind_ok (run_yield _), Procedure.run_get_bind]
  have hpath : Path Quiet s s.yielded.yielded := (yielded_path s).trans (yielded_path _)
  by_cases hpanicked : (s.yielded.yielded.storage.alive && s.yielded.storage.finished) = true
  · rw [if_pos hpanicked]
    have hfinished := yielded_finished (s := s.yielded) (by simp_all)
    obtain ⟨s₁, hrun, howner, hfail⟩ := @run_fail layout "storage worker panicked" s.yielded.yielded
    rw [Procedure.run_bind_ok hrun]
    refine ⟨(hpath.tail (.failed _ (.inl (.down (.inl hfinished))) rfl)).trans hfail, fun s' heq => .inl ?_⟩
    obtain rfl : s₁ = s' := congrArg Prod.snd heq
    rw [howner]
    rfl
  · rw [if_neg hpanicked]
    refine ⟨hpath, fun s' heq => .inr ?_⟩
    obtain rfl : s.yielded.yielded = s' := congrArg Prod.snd heq
    have hdead : (!s.yielded.yielded.storage.alive) = true := Except.ok.inj (congrArg Prod.fst heq)
    simpa using hdead

theorem readFinalReceipt_path (h : s.storage.alive = false) :
    Path Quiet s ((readFinalReceipt : Step layout Unit).run s).2 := by
  unfold readFinalReceipt
  obtain ⟨receipt, schedule, hrun, hreceipt⟩ := run_cloneReceipt s
  rw [Procedure.run_bind_ok hrun]
  have hpath := locked_path s schedule
  have hdead : s.yielded.storage.alive = false := yielded_alive h
  obtain rfl | rfl := hreceipt
  · exact hpath
  refine hpath.trans (Procedure.Moves.bind_at (applyReceipt_path _ (.inl rfl)) fun _ s₁ happly => ?_)
  have hdead₁ : s₁.storage.alive = false := by
    have hkept := (applyReceipt_path (s := { s.yielded with schedule }) _ (.inl rfl)).keeps (fun _ _ => Micro.alive) hdead
    rwa [happly] at hkept
  rw [Procedure.run_bind_ok (run_owner s₁)]
  split_ifs
  · exact fail_path _ (.inl (.down (.inr (.inl hdead₁)))) granted_quiet
  · exact .refl

/-- Observing the worker is a quiet path that ends with the owner's own status. -/
theorem reconcileReceipt_path (fresh : Option Receipt) (hfresh : ∀ receipt, fresh = some receipt → s.storage.Shown receipt) :
    Path Quiet s ((reconcileReceipt fresh).run s).2 ∧
      ∀ status s', (reconcileReceipt fresh).run s = (.ok status, s') →
        status = s'.owner.cached ∧ status.outstanding = s'.owner.charged := by
  unfold reconcileReceipt
  have happly : Path Quiet s ((applyFresh fresh).run s).2 := by
    cases fresh with
    | none => exact .refl
    | some receipt => exact applyReceipt_path receipt (hfresh receipt rfl)
  obtain ⟨e, s₁, hrun, heq⟩ | ⟨_, s₁, hrun, heq⟩ := Procedure.bind_cases (applyFresh fresh) _ s
  · rw [heq]
    rw [hrun] at happly
    exact ⟨happly, fun _ _ => nofun⟩
  rw [heq]
  rw [hrun] at happly
  obtain ⟨hobserve, hclosed⟩ := observeWorker_path s₁
  obtain ⟨e, s₂, hrun₂, heq₂⟩ | ⟨workerClosed, s₂, hrun₂, heq₂⟩ := Procedure.bind_cases (observeWorker : Step layout Bool) _ s₁
  · rw [heq₂]
    rw [hrun₂] at hobserve
    exact ⟨happly.trans hobserve, fun _ _ => nofun⟩
  rw [heq₂, Procedure.run_bind_ok (run_owner s₂)]
  rw [hrun₂] at hobserve
  have hpath := happly.trans hobserve
  have hlast : ∀ s₃ : System layout, Path Quiet s s₃ →
      Path Quiet s ((do
        update fun o => { o.showOutstanding with cached := { o.showOutstanding.cached with workerClosed } }
        return (← owner).cached : Step layout RecordingStatus).run s₃).2 ∧
      ∀ status s', (do
        update fun o => { o.showOutstanding with cached := { o.showOutstanding.cached with workerClosed } }
        return (← owner).cached : Step layout RecordingStatus).run s₃ = (.ok status, s') →
          status = s'.owner.cached ∧ status.outstanding = s'.owner.charged := by
    refine fun s₃ hpath₃ => ⟨hpath₃.tail (.changed _ (.observed workerClosed)), fun status s' hresult => ?_⟩
    cases hresult
    exact ⟨rfl, rfl⟩
  by_cases hfinal : (workerClosed && !s₂.owner.cached.state.settled) = true
  · rw [if_pos hfinal]
    simp only [Bool.and_eq_true, Bool.not_eq_true'] at hfinal
    obtain ⟨rfl, hsettled⟩ := hfinal
    have hdead : s₂.storage.alive = false := (hclosed s₂ hrun₂).resolve_left fun hfailed => by
      rw [hfailed] at hsettled
      cases hsettled
    have hread := readFinalReceipt_path hdead
    obtain ⟨e, s₃, hrun₃, heq₃⟩ | ⟨_, s₃, hrun₃, heq₃⟩ := Procedure.bind_cases (readFinalReceipt : Step layout Unit) (fun _ => do
        update fun o => { o.showOutstanding with cached := { o.showOutstanding.cached with workerClosed := true } }
        return (← owner).cached : Unit → Step layout RecordingStatus) s₂
    · rw [hrun₃] at hread
      rw [heq₃]
      exact ⟨hpath.trans hread, fun _ _ => nofun⟩
    · rw [hrun₃] at hread
      rw [heq₃]
      exact hlast s₃ (hpath.trans hread)
  · rw [if_neg hfinal]
    exact hlast s₂ hpath

theorem schedulePeriodic_path (s : System layout) : Path Quiet s ((schedulePeriodic : Step layout Unit).run s).2 ∧
    (((schedulePeriodic : Step layout Unit).run s).2.owner.cached = s.owner.cached ∨
      ((schedulePeriodic : Step layout Unit).run s).2.owner.Exhausted) ∧
    ((schedulePeriodic : Step layout Unit).run s).2.owner.charged = s.owner.charged := by
  unfold schedulePeriodic
  rw [Procedure.run_bind_ok (run_owner s)]
  by_cases hquiet : s.owner.periodicPending.isSome = true ∨ s.owner.finishRequested = true ∨
      ¬ (s.owner.cached.state = .idle ∨ s.owner.cached.state = .recording)
  · rw [if_pos hquiet]
    exact ⟨.refl, .inl rfl, rfl⟩
  rw [if_neg hquiet]
  simp only [not_or, Bool.not_eq_true, Option.isSome_eq_false_iff, Option.isNone_iff_eq_none] at hquiet
  obtain ⟨hpending, hfinish, hstate⟩ := hquiet
  rw [← not_or, not_not] at hstate
  have hnow : (now : Step layout ℕ).run s = (.ok (s.schedule.times.headD 0),
    { s with schedule := { s.schedule with times := s.schedule.times.tail } }) := rfl
  rw [Procedure.run_bind_ok hnow]
  generalize s.schedule.times.headD 0 = time
  generalize ({ s.schedule with times := s.schedule.times.tail } : Schedule) = schedule
  have hpath : Path Quiet s { s with schedule } := .single (.scheduled schedule)
  split_ifs with hearly
  · exact ⟨hpath, .inl rfl, rfl⟩
  cases hplan : s.owner.plannedRange 1 with
  | none =>
    have hexhausted : s.owner.Exhausted := by
      by_contra hleft
      have hle : s.owner.reservedThrough + 1 ≤ u64Max := Nat.le_of_not_lt hleft
      have hnext : s.owner.Next 1 (s.owner.reservedThrough + 1) (s.owner.reservedThrough + 1) :=
        RecorderWorker.next_iff.2 ⟨rfl, hle, rfl, hle⟩
      rw [RecorderWorker.Next, hplan] at hnext
      cases hnext
    obtain ⟨s₁, hrun, howner, hfail⟩ := @run_fail layout "clock record identity exhausted" { s with schedule }
    dsimp only
    rw [hrun]
    refine ⟨(hpath.tail (.failed _ (.inl (.exhausted hexhausted)) rfl)).trans hfail, .inr ?_, ?_⟩
    · rw [howner]
      exact hexhausted
    · rw [howner]
      rfl
  | some range =>
    obtain ⟨first, last⟩ := range
    dsimp only
    have hgranted : Granted Quiet ({ s with schedule } : System layout) fun act => act = .send (.clockAnchor first) :=
      fun _ act _ hact => hact.elim id fun heq => by rw [heq]; rfl
    rw [Procedure.run_bind_pure _ (fun _ => ())]
    have hoffer := RecorderWorker.Offer.clockAnchor time first last hpending hfinish hstate hplan
    refine ⟨hpath.trans (transfer_path _ _ hoffer hgranted rfl), ?_⟩
    obtain howner | howner := transfer_owner (s := { s with schedule }) _
      (fun o => { o with reservedThrough := last, lastPeriodic := time, periodicPending := some first }) hoffer
    · rw [howner]
      exact ⟨.inl rfl, rfl⟩
    · rw [howner]
      exact ⟨.inl rfl, rfl⟩

theorem drainHistoryCancellations_path (s : System layout) :
    Path Quiet s ((drainHistoryCancellations : Step layout Unit).run s).2 := by
  unfold drainHistoryCancellations
  rw [Procedure.run_bind_ok (run_owner s)]
  split_ifs with hnone
  · exact .refl
  obtain ⟨active, schedule, hactive⟩ := run_tryLock s
  rw [Procedure.run_bind_ok hactive]
  have hpath := locked_path s schedule
  generalize ({ s.yielded with schedule } : System layout) = s₁ at hpath
  cases active with
  | false => exact hpath
  | true =>
    obtain ⟨history, schedule, hhistory⟩ := run_tryLock s₁
    rw [if_pos rfl, Procedure.run_bind_ok hhistory]
    have hpath := hpath.trans (locked_path s₁ schedule)
    generalize ({ s₁.yielded with schedule } : System layout) = s₂ at hpath
    cases history with
    | false => exact hpath
    | true =>
      obtain ⟨runs, schedule, hruns⟩ := run_tryLock s₂
      rw [if_pos rfl, Procedure.run_bind_ok hruns]
      have hpath := hpath.trans (locked_path s₂ schedule)
      generalize ({ s₂.yielded with schedule } : System layout) = s₃ at hpath
      cases runs with
      | false => exact hpath
      | true => exact (hpath.tail (.slots _ _ _)).tail (.changed _ (.jobs s₃.owner.liveHistoryJobs []))

/-- A poll is a quiet path; its status is the owner's, unless no record number was left. -/
theorem poll_path (s : System layout) : Path Quiet s ((poll : Step layout RecordingStatus).run s).2 ∧
    ∀ status s', (poll : Step layout RecordingStatus).run s = (.ok status, s') →
      status = s'.owner.cached ∨ s'.owner.Exhausted := by
  unfold poll
  have hdrain := drainHistoryCancellations_path s
  obtain ⟨e, s₁, hrun, heq⟩ | ⟨_, s₁, hrun, heq⟩ := Procedure.bind_cases (drainHistoryCancellations : Step layout Unit) _ s
  · rw [heq]
    rw [hrun] at hdrain
    exact ⟨hdrain, fun _ _ => nofun⟩
  rw [hrun] at hdrain
  obtain ⟨receipt, schedule, hclone, hreceipt⟩ := run_cloneReceipt s₁
  rw [heq, Procedure.run_bind_ok hclone]
  have hcloned := hdrain.trans (locked_path s₁ schedule)
  have hshown : ∀ r, receipt = some r → ({ s₁.yielded with schedule } : System layout).storage.Shown r := by
    rintro r rfl
    obtain hnone | hsome := hreceipt
    · cases hnone
    · exact .inl (Option.some.inj hsome)
  obtain ⟨hreconcile, hstatus⟩ := reconcileReceipt_path receipt hshown
  obtain ⟨e, s₂, hrun₂, heq₂⟩ | ⟨status, s₂, hrun₂, heq₂⟩ :=
    Procedure.bind_cases (reconcileReceipt receipt) _ { s₁.yielded with schedule }
  · rw [heq₂]
    rw [hrun₂] at hreconcile
    exact ⟨hcloned.trans hreconcile, fun _ _ => nofun⟩
  rw [hrun₂] at hreconcile
  rw [heq₂]
  obtain ⟨hperiodic, hcached, -⟩ := schedulePeriodic_path s₂
  rw [Procedure.run_bind_pure]
  refine ⟨(hcloned.trans hreconcile).trans hperiodic, fun status' s' hresult => ?_⟩
  obtain ⟨_, s₃, hrun₃, hlast⟩ := Procedure.bind_ok.1 hresult
  obtain ⟨rfl, rfl⟩ : status = status' ∧ s₃ = s' := by
    cases hlast
    exact ⟨rfl, rfl⟩
  rw [hrun₃] at hcached
  obtain hcached | hexhausted := hcached
  · exact .inl ((hstatus status s₂ hrun₂).1.trans hcached.symm)
  · exact .inr hexhausted

/-- The status of a poll shows the credit that is charged. -/
theorem poll_outstanding {status : RecordingStatus} (h : (poll : Step layout RecordingStatus).run s = (.ok status, s')) :
    status.outstanding = s'.owner.charged := by
  unfold poll at h
  obtain ⟨_, s₁, -, h⟩ := Procedure.bind_ok.1 h
  obtain ⟨receipt, schedule, hclone, hreceipt⟩ := run_cloneReceipt s₁
  rw [Procedure.run_bind_ok hclone] at h
  obtain ⟨status', s₂, hreconcile, h⟩ := Procedure.bind_ok.1 h
  obtain ⟨_, s₃, hperiodic, h⟩ := Procedure.bind_ok.1 h
  obtain ⟨rfl, rfl⟩ : status' = status ∧ s₃ = s' := by
    cases h
    exact ⟨rfl, rfl⟩
  have hshown : ∀ r, receipt = some r → ({ s₁.yielded with schedule } : System layout).storage.Shown r := by
    rintro r rfl
    exact hreceipt.elim nofun fun hsome => .inl (Option.some.inj hsome)
  have hcharged := (schedulePeriodic_path s₂).2.2
  rw [hperiodic] at hcharged
  rw [hcharged]
  exact ((reconcileReceipt_path receipt hshown).2 _ _ hreconcile).2

end LabRuntime.Recorder
