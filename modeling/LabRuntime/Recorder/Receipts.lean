import LabRuntime.Recorder.Barriers

/-! Receipts are cumulative: each one covers a prefix of what the worker has settled, and the
worker's own is behind its store by at most the transaction it has not published. -/

namespace LabRuntime.Recorder

open History

variable {layout : FactLayout} {A : System layout → Act → Prop}

/-- What a receipt says of the runs is what the messages it covers leave. -/
structure Receipt.Tells (receipt : Receipt) (covered : List Message) : Prop where
  idle : receipt.state = .idle → Even (barriers covered)
  recording : receipt.state = .recording → ¬ Even (barriers covered)
  state : receipt.state ≠ .starting ∧ receipt.state ≠ .stopping
  run : receipt.runNo.isSome = true ↔ Running covered
  gap : receipt.failurePersisted = true → ¬ Gapless covered
  error : receipt.state = .failed → receipt.firstError.isSome = true
  confirmed : ∀ time, receipt.confirmedSubmission = some time → ∃ m ∈ covered, m.submission = some time

/-- The counters of a receipt are those of the messages it covers. -/
structure Receipt.Covers (receipt : Receipt) (covered : List Message) : Prop where
  persisted : receipt.persisted = Spans.total Message.records covered
  released : receipt.released = Spans.sum Message.credit covered
  referenceReleased : receipt.referenceReleased = Spans.sum Message.referenceCredit covered
  tells : receipt.Tells covered

namespace Receipt

variable {receipt receipt' : Receipt} {covered : List Message}

theorem tells_default : Receipt.default.Tells [] where
  idle _ := by simp
  recording h := by cases h
  state := ⟨nofun, nofun⟩
  run := iff_of_false (by simp [Receipt.default]) not_running_nil
  gap h := by cases h
  error h := by cases h
  confirmed _ h := by cases h

theorem Tells.fail (h : receipt.Tells covered) (error : StorageError) : (receipt.fail error).Tells covered :=
  ⟨nofun, nofun, ⟨nofun, nofun⟩, h.run, h.gap, fun _ => rfl, h.confirmed⟩

theorem Tells.last (h : receipt.Tells covered) : (Storage.lastReceipt receipt).Tells covered := by
  unfold Storage.lastReceipt
  split_ifs
  · exact ⟨nofun, nofun, ⟨nofun, nofun⟩, h.run, h.gap, nofun, h.confirmed⟩
  · exact h.fail _
  · exact h

/-- Messages that open no run and close none. -/
theorem Tells.more (h : receipt.Tells covered) {more : List Message} (hbarriers : barriers more = 0)
    (hgapless : Gapless more) : receipt.Tells (covered ++ more) where
  idle hidle := by simpa [hbarriers] using h.idle hidle
  recording hrecording := by simpa [hbarriers] using h.recording hrecording
  state := h.state
  run := by simpa [Running, hbarriers, hgapless] using h.run
  gap hgap hnone := h.gap hgap (gapless_append.1 hnone).1
  error := h.error
  confirmed time htime := by
    obtain ⟨m, hm, hsubmission⟩ := h.confirmed time htime
    exact ⟨m, List.mem_append_left _ hm, hsubmission⟩

/-- Counters may change, and the submission that is confirmed. -/
theorem Tells.of_same (h : receipt.Tells covered) (hstate : receipt'.state = receipt.state)
    (hrun : receipt'.runNo = receipt.runNo) (hgap : receipt'.failurePersisted = receipt.failurePersisted)
    (herror : receipt'.firstError = receipt.firstError)
    (hconfirmed : ∀ time, receipt'.confirmedSubmission = some time →
      receipt.confirmedSubmission = some time ∨ ∃ m ∈ covered, m.submission = some time) : receipt'.Tells covered where
  idle := hstate ▸ h.idle
  recording := hstate ▸ h.recording
  state := hstate ▸ h.state
  run := hrun ▸ h.run
  gap := hgap ▸ h.gap
  error := by rw [hstate, herror]; exact h.error
  confirmed time htime := (hconfirmed time htime).elim (h.confirmed time) id

theorem covers_default : Receipt.default.Covers [] := ⟨rfl, rfl, rfl, tells_default⟩

/-- A failure changes no counter. -/
theorem Covers.fail (h : receipt.Covers covered) (error : StorageError) : (receipt.fail error).Covers covered :=
  ⟨h.persisted, h.released, h.referenceReleased, h.tells.fail error⟩

theorem Covers.last (h : receipt.Covers covered) : (Storage.lastReceipt receipt).Covers covered := by
  have htells := h.tells.last
  unfold Storage.lastReceipt at htells ⊢
  split_ifs at htells ⊢ <;> exact ⟨h.persisted, h.released, h.referenceReleased, htells⟩

/-- History jobs take no credit and no record. -/
theorem Covers.job (h : receipt.Covers covered) {m : Message} (job : Storage.isJob m = true) :
    receipt.Covers (covered ++ [m]) := by
  have hrecords : m.records = 0 := Storage.isJob_records job
  have hcredit : m.credit = 0 := by cases m <;> first | rfl | cases job
  have hreference : m.referenceCredit = 0 := by cases m <;> first | rfl | cases job
  have hgap : m.isGapSeal = false := by cases m <;> first | rfl | cases job
  refine ⟨?_, ?_, ?_, h.tells.more (barriers_eq_zero (by simpa using hrecords)) (gapless_singleton.2 hgap)⟩
  · rw [Spans.total_append, Spans.total_cons, hrecords, h.persisted]
    rfl
  · rw [Spans.sum_append, Spans.sum_cons, hcredit, h.released]
    simp
  · rw [Spans.sum_append, Spans.sum_cons, hreference, h.referenceReleased]
    simp

end Receipt

/-! ### Publication -/

theorem batchCredit_sum (groups : List FactGroup) : batchCredit groups = Spans.sum Message.credit (groups.map .facts) := by
  induction groups with
  | nil => rfl
  | cons group groups ih =>
    rw [List.map_cons, Spans.sum_cons, ← ih]
    ext <;> simp [batchCredit, Message.credit, Nat.add_comm]

theorem batchReference_sum (groups : List FactGroup) : Spans.sum Message.referenceCredit (groups.map .facts) = 0 := by
  induction groups with
  | nil => rfl
  | cons group groups ih =>
    rw [List.map_cons, Spans.sum_cons, ih]
    rfl

theorem latest_cases (old : Option ℕ) (time : ℕ) : latest old time = time ∨ old = some (latest old time) := by
  cases old with
  | none => exact .inl rfl
  | some old =>
    change max old time = time ∨ some old = some (max old time)
    rw [Option.some.injEq]
    omega

theorem foldl_max_mem (time : ℕ) (times : List ℕ) : times.foldl max time ∈ time :: times := by
  induction times generalizing time with
  | nil => exact List.mem_singleton_self _
  | cons t times ih =>
    have hmem := ih (max time t)
    rw [List.foldl_cons]
    rcases List.mem_cons.1 hmem with h | h
    · rw [h]
      rcases max_choice time t with hmax | hmax <;> simp [hmax]
    · simp [h]

/-- The time of a batch is that of one of its groups. -/
theorem batchSubmission_mem {groups : List FactGroup} (h : groups ≠ []) :
    ∃ m ∈ groups.map Message.facts, m.submission = some (batchSubmission groups) := by
  obtain ⟨group, rest, rfl⟩ := List.exists_cons_of_ne_nil h
  have hmem := foldl_max_mem group.submittedAt (rest.map FactGroup.submittedAt)
  have htime : batchSubmission (group :: rest) = (rest.map FactGroup.submittedAt).foldl max group.submittedAt := by
    simp [batchSubmission]
  rw [← List.map_cons, ← htime] at hmem
  obtain ⟨found, hfound, heq⟩ := List.mem_map.1 hmem
  exact ⟨.facts found, List.mem_map_of_mem hfound, congrArg some heq⟩

/-- A receipt that confirms the time of a message it covers. -/
theorem Receipt.Tells.confirm {receipt receipt' : Receipt} {covered : List Message} {m : Message} {time : ℕ}
    (h : receipt.Tells covered) (hm : m ∈ covered) (htime : m.submission = some time)
    (hstate : receipt'.state = receipt.state) (hrun : receipt'.runNo = receipt.runNo)
    (hgap : receipt'.failurePersisted = receipt.failurePersisted) (herror : receipt'.firstError = receipt.firstError)
    (hconfirmed : receipt'.confirmedSubmission = some (latest receipt.confirmedSubmission time)) :
    receipt'.Tells covered := by
  refine h.of_same hstate hrun hgap herror fun found hfound => ?_
  rw [hconfirmed, Option.some.injEq] at hfound
  subst hfound
  obtain hnew | hold := latest_cases receipt.confirmedSubmission time
  · exact .inr ⟨m, hm, by rw [hnew, htime]⟩
  · exact .inl hold

/-- After the transaction of a message the receipt tells what it leaves of the runs. -/
theorem Receipt.Tells.publish {receipt receipt' : Receipt} {covered : List Message} {store : SqliteStore} {message : Message}
    (h : receipt.Tells covered) (hpublish : receipt.publish store (.one message) = .ok receipt')
    (hplaced : message.Placed covered) (hagrees : store.Agrees (covered ++ [message])) :
    receipt'.Tells (covered ++ [message]) := by
  have hlast : message ∈ covered ++ [message] := by simp
  have hmore : message.barrier = false → message.isGapSeal = false → receipt.Tells (covered ++ [message]) :=
    fun hbarrier hgap => h.more (by simp [hbarrier]) (gapless_singleton.2 hgap)
  cases message with
  | activation root lifecycle =>
    change receipt.activated root lifecycle = .ok receipt' at hpublish
    unfold Receipt.activated at hpublish
    simp only [following_bind, require_bind] at hpublish
    obtain ⟨-, -, hpublish⟩ := hpublish
    cases lifecycle with
    | none =>
      cases hpublish
      exact (hmore rfl rfl).of_same rfl rfl rfl rfl fun _ => .inl
    | some live =>
      cases hpublish
      exact (hmore rfl rfl).confirm hlast rfl rfl rfl rfl rfl rfl
  | start label policy submittedAt boundary firstRecord =>
    cases hpublish
    obtain ⟨heven, -⟩ : Even (barriers covered) ∧ Gapless covered := hplaced
    refine ⟨fun h => (by cases h), fun _ => ?_, ⟨fun h => (by cases h), fun h => (by cases h)⟩, hagrees,
      fun hgap hnone => h.gap hgap (gapless_append.1 hnone).1, fun h => (by cases h), fun time htime => ⟨_, hlast, htime⟩⟩
    simp [Message.barrier, Nat.even_add_one, heven]
  | stop summary requestedAt firstRecord =>
    cases hpublish
    obtain ⟨hodd, -⟩ : Running covered := hplaced
    have heven : Even (barriers (covered ++ [.stop summary requestedAt firstRecord])) := by
      simpa [Message.barrier, Nat.even_add_one] using hodd
    refine ⟨fun _ => heven, fun h => (by cases h), ⟨fun h => (by cases h), fun h => (by cases h)⟩,
      iff_of_false (by simp) fun hrun => hrun.1 heven,
      fun hgap hnone => h.gap hgap (gapless_append.1 hnone).1, fun h => (by cases h), fun time htime => ?_⟩
    obtain ⟨m, hm, hsubmission⟩ := h.confirmed time htime
    exact ⟨m, List.mem_append_left _ hm, hsubmission⟩
  | gapSeal gap assigned =>
    cases hpublish
    have hgap : ¬ Gapless (covered ++ [.gapSeal gap assigned]) := by simp [Message.isGapSeal]
    refine ⟨fun hidle => ?_, fun hrecording => ?_, h.state, iff_of_false (by simp) fun hrun => hgap hrun.2, fun _ => hgap,
      h.error, fun time htime => ?_⟩
    · simpa [Message.barrier] using h.idle hidle
    · simpa [Message.barrier] using h.recording hrecording
    · obtain ⟨m, hm, hsubmission⟩ := h.confirmed time htime
      exact ⟨m, List.mem_append_left _ hm, hsubmission⟩
  | facts group =>
    cases hpublish
    exact (hmore rfl rfl).confirm hlast rfl rfl rfl rfl rfl rfl
  | operation | referenceAccepted | referenceCompletion | annotation | probe =>
    cases hpublish
    exact (hmore rfl rfl).confirm hlast rfl rfl rfl rfl rfl rfl
  | clockAnchor | history | runs | finish =>
    cases hpublish
    exact (hmore rfl rfl).of_same rfl rfl rfl rfl fun _ => .inl

/-- After a transaction the receipt covers its messages too; the final seal is not counted. -/
theorem Receipt.Covers.publish {receipt receipt' : Receipt} {covered : List Message} {store : SqliteStore} {work : Work}
    (h : receipt.Covers covered) (hpublish : receipt.publish store work = .ok receipt') (hsome : work.messages ≠ [])
    (hchained : Spans.Chained Message.firstRecord Message.records 0 (covered ++ work.messages))
    (hstore : store.nextRecordSequence = Spans.total Message.records (covered ++ work.messages))
    (hplaced : Hitherto Message.Placed (covered ++ work.messages)) (hagrees : store.Agrees (covered ++ work.messages)) :
    if Storage.isFinish work then receipt'.Covers covered else receipt'.Covers (covered ++ work.messages) := by
  have hpersisted := hstore
  rw [Spans.total_append] at hpersisted
  cases work with
  | batch groups =>
    cases hpublish
    refine ⟨hstore, ?_, ?_, ?_⟩
    · change receipt.released + batchCredit groups = _
      rw [Spans.sum_append, h.released, batchCredit_sum]
      rfl
    · change receipt.referenceReleased = _
      rw [Spans.sum_append, h.referenceReleased, show Spans.sum Message.referenceCredit (Work.batch groups).messages = 0 from
        batchReference_sum groups, add_zero]
    · obtain ⟨m, hm, htime⟩ := @batchSubmission_mem groups (by simpa [Work.messages] using hsome)
      exact (h.tells.more (barriers_batch groups) (gapless_batch groups)).confirm (List.mem_append_right _ hm) htime rfl rfl
        rfl rfl rfl
  | one message =>
    have htells := h.tells.publish hpublish hplaced.next hagrees
    have hsum : ∀ weight : Message → Credit,
        Spans.sum weight (covered ++ [message]) = Spans.sum weight covered + weight message := fun weight => by
      rw [Spans.sum_append, Spans.sum_cons, Spans.sum_nil, add_zero]
    change store.nextRecordSequence = Spans.total Message.records (covered ++ [message]) at hstore
    -- what every message but an activation and a seal publishes
    have hcounted : receipt'.persisted = store.nextRecordSequence →
        receipt'.released = receipt.released + message.credit →
        receipt'.referenceReleased = receipt.referenceReleased + message.referenceCredit →
        receipt'.Covers (covered ++ [message]) := fun hp hr hq =>
      ⟨hp.trans hstore, by rw [hr, hsum, h.released], by rw [hq, hsum, h.referenceReleased], htells⟩
    have huncounted : message.records = 0 → message.credit = 0 → message.referenceCredit = 0 →
        receipt'.persisted = receipt.persisted → receipt'.released = receipt.released →
        receipt'.referenceReleased = receipt.referenceReleased → receipt'.Covers (covered ++ [message]) :=
      fun hn hc hq hp hr href => by
        refine ⟨?_, ?_, ?_, htells⟩
        · rw [hp, h.persisted, Spans.total_append, Spans.total_cons, hn]
          rfl
        · rw [hr, hsum, hc, add_zero, h.released]
        · rw [href, hsum, hq, add_zero, h.referenceReleased]
    cases message with
    | activation root lifecycle =>
      change receipt.activated root lifecycle = .ok receipt' at hpublish
      unfold Receipt.activated at hpublish
      simp only [following_bind, require_bind] at hpublish
      obtain ⟨-, -, hpublish⟩ := hpublish
      cases lifecycle with
      | none =>
        cases hpublish
        exact huncounted rfl rfl rfl rfl rfl rfl
      | some live =>
        cases hpublish
        have hassigned : live.assigned = Spans.total Message.records covered + 1 := by
          have := hchained.right
          rw [Nat.zero_add] at this
          exact (Spans.chained_cons.1 this).1 (by simp [Message.records])
        refine hcounted ?_ rfl (add_zero _).symm
        rw [hstore, Spans.total_append, Spans.total_cons]
        exact hassigned
    | start | clockAnchor | gapSeal | stop =>
      cases hpublish
      exact hcounted rfl (add_zero _).symm (add_zero _).symm
    | facts group =>
      cases hpublish
      refine hcounted rfl ?_ (add_zero _).symm
      change receipt.released + batchCredit [group] = _
      rw [batchCredit_sum]
      simp
    | operation | annotation =>
      cases hpublish
      exact hcounted rfl rfl (add_zero _).symm
    | referenceAccepted | referenceCompletion =>
      cases hpublish
      exact hcounted rfl rfl rfl
    | probe | history | runs =>
      cases hpublish
      exact huncounted rfl rfl rfl rfl rfl rfl
    | finish =>
      cases hpublish
      exact ⟨h.persisted, h.released, h.referenceReleased, h.tells.of_same rfl rfl rfl rfl fun _ => .inl⟩

/-- Only the transaction of a finish seals the boot's receipt. -/
theorem Receipt.publish_sealed {receipt receipt' : Receipt} {store : SqliteStore} {work : Work}
    (hpublish : receipt.publish store work = .ok receipt') (hfinish : Storage.isFinish work = false) :
    receipt'.terminalSealCommitted = receipt.terminalSealCommitted := by
  cases work with
  | batch groups => cases hpublish; rfl
  | one message =>
    cases message with
    | activation root lifecycle =>
      change receipt.activated root lifecycle = .ok receipt' at hpublish
      unfold Receipt.activated at hpublish
      simp only [following_bind, require_bind] at hpublish
      obtain ⟨-, -, hpublish⟩ := hpublish
      cases lifecycle <;> (cases hpublish; rfl)
    | finish => cases hfinish
    | _ => cases hpublish; rfl

/-- Publishing never closes the recorder. -/
theorem Receipt.publish_state {receipt receipt' : Receipt} {store : SqliteStore} {work : Work}
    (hpublish : receipt.publish store work = .ok receipt') (hstate : receipt.state ≠ .closed) :
    receipt'.state ≠ .closed := by
  cases work with
  | batch groups => cases hpublish; exact hstate
  | one message =>
    cases message with
    | activation root lifecycle =>
      change receipt.activated root lifecycle = .ok receipt' at hpublish
      unfold Receipt.activated at hpublish
      simp only [following_bind, require_bind] at hpublish
      obtain ⟨-, -, hpublish⟩ := hpublish
      cases lifecycle <;> (cases hpublish; exact hstate)
    | start | stop =>
      cases hpublish
      intro hclosed
      cases hclosed
    | _ => cases hpublish; exact hstate

/-! ### The invariant -/

/-- A value of the receipt covers a prefix of what is settled. -/
def Storage.Backed (s : Storage) (receipt : Receipt) : Prop := ∃ covered, covered <+: s.settled ∧ receipt.Covers covered

/-- Where the worker's own receipt stands. -/
def Storage.Current (s : Storage) : Prop :=
  match s.phase with
  | .stored work _ => ∃ covered, s.settled = covered ++ work.messages ∧ work.messages ≠ [] ∧ s.receipt.Covers covered
  | .ready _ => s.receipt.Covers s.settled
  | .reading _ => s.receipt.Covers s.settled
  | .holding _ _ => s.receipt.Covers s.settled
  | .receipted _ => s.receipt.Covers s.settled
  | _ => s.Backed s.receipt

/-- The loop is past its last transaction. -/
def Phase.over : Phase → Bool
  | .closing _ => true
  | .leaving _ => true
  | .exiting _ => true
  | .ended _ => true
  | .unwound _ => true
  | _ => false

/-- A receipt with the seal of the boot covers all that is settled before the finish. -/
def Storage.Finished (s : Storage) (receipt : Receipt) : Prop :=
  s.phase.over = true ∧ ∃ covered m, s.settled = covered ++ [m] ∧ m.isFinish = true ∧ receipt.Covers covered

structure Storage.Receipted (s : Storage) : Prop where
  current : s.Current
  published : ∀ receipt ∈ s.published, s.Backed receipt
  sealed : ∀ receipt, s.Shown receipt → receipt.terminalSealCommitted = true → s.Finished receipt
  closed : ∀ receipt, s.Shown receipt → receipt.state = .closed →
    receipt.terminalSealCommitted = true ∧ s.phase.receiving = false

namespace Storage

variable {s s' : Storage}

theorem Backed.mono {receipt : Receipt} (h : s.Backed receipt) {more : List Message}
    (hsettled : s'.settled = s.settled ++ more) : s'.Backed receipt := by
  obtain ⟨covered, hfront, hcovers⟩ := h
  exact ⟨covered, hsettled ▸ hfront.trans (List.prefix_append _ _), hcovers⟩

theorem Current.backed (h : s.Current) : s.Backed s.receipt := by
  unfold Current at h
  split at h
  · obtain ⟨covered, hsettled, -, hcovers⟩ := h
    exact ⟨covered, hsettled ▸ List.prefix_append _ _, hcovers⟩
  · exact ⟨_, List.prefix_rfl, h⟩
  · exact ⟨_, List.prefix_rfl, h⟩
  · exact ⟨_, List.prefix_rfl, h⟩
  · exact ⟨_, List.prefix_rfl, h⟩
  · exact h

theorem Receipted.shown (h : s.Receipted) {receipt : Receipt} (hshown : s.Shown receipt) : s.Backed receipt := by
  obtain rfl | hpublished := hshown
  · exact h.current.backed
  · exact h.published receipt hpublished

/-- A loop that may still take messages has sealed nothing. -/
theorem Receipted.unsealed (h : s.Receipted) (hphase : s.phase.over = false) {receipt : Receipt} (hshown : s.Shown receipt) :
    receipt.terminalSealCommitted = false ∧ receipt.state ≠ .closed := by
  have hsealed : receipt.terminalSealCommitted = false := by
    by_contra hsealed
    have hover := (h.sealed receipt hshown (by simpa using hsealed)).1
    rw [hphase] at hover
    cases hover
  refine ⟨hsealed, fun hclosed => ?_⟩
  have hcommitted := (h.closed receipt hshown hclosed).1
  rw [hsealed] at hcommitted
  cases hcommitted

/-- A move of a running loop that publishes nothing. -/
theorem Receipted.running {more : List Message} (h : s.Receipted) (hphase : s.phase.over = false) (hcurrent : s'.Current)
    (hsettled : s'.settled = s.settled ++ more) (hreceipt : s'.receipt = s.receipt) (hpublished : s'.published = s.published) :
    s'.Receipted := by
  have hshown : ∀ receipt, s'.Shown receipt → s.Shown receipt := fun receipt hr => by
    unfold Shown at hr
    rwa [hreceipt, hpublished] at hr
  refine ⟨hcurrent, fun receipt hr => (h.published receipt (hpublished ▸ hr)).mono hsettled, fun receipt hr hsealed => ?_,
    fun receipt hr hclosed => absurd hclosed (h.unsealed hphase (hshown _ hr)).2⟩
  rw [(h.unsealed hphase (hshown _ hr)).1] at hsealed
  cases hsealed

/-- A move after the last transaction that publishes nothing. -/
theorem Receipted.ending (h : s.Receipted) (hphase : s'.phase.over = true)
    (hreceiving : s.phase.receiving = false → s'.phase.receiving = false) (hcurrent : s'.Current)
    (hsettled : s'.settled = s.settled) (hreceipt : s'.receipt = s.receipt) (hpublished : s'.published = s.published) :
    s'.Receipted := by
  have hshown : ∀ receipt, s'.Shown receipt → s.Shown receipt := fun receipt hr => by
    unfold Shown at hr
    rwa [hreceipt, hpublished] at hr
  refine ⟨hcurrent, fun receipt hr => (h.published receipt (hpublished ▸ hr)).mono (hsettled.trans (List.append_nil _).symm),
    fun receipt hr hsealed => ?_, fun receipt hr hclosed => ?_⟩
  · obtain ⟨-, hfinished⟩ := h.sealed receipt (hshown _ hr) hsealed
    exact ⟨hphase, hsettled ▸ hfinished⟩
  · obtain ⟨hsealed, hdown⟩ := h.closed receipt (hshown _ hr) hclosed
    exact ⟨hsealed, hreceiving hdown⟩

/-- A move that publishes one value. -/
theorem Receipted.posted {f : Receipt → Receipt} {phase : Phase} (h : s.Receipted)
    (hcurrent : ({ s.post f with phase } : Storage).Current) (hbacked : s.Backed (f s.receipt))
    (hover : s.phase.over = true → phase.over = true)
    (hreceiving : s.phase.receiving = false → phase.receiving = false)
    (hsealed : (f s.receipt).terminalSealCommitted = true →
      phase.over = true ∧ ∃ covered m, s.settled = covered ++ [m] ∧ m.isFinish = true ∧ (f s.receipt).Covers covered)
    (hclosed : (f s.receipt).state = .closed → (f s.receipt).terminalSealCommitted = true ∧ phase.receiving = false) :
    ({ s.post f with phase } : Storage).Receipted := by
  have hshown : ∀ receipt, ({ s.post f with phase } : Storage).Shown receipt → s.Shown receipt ∨ receipt = f s.receipt := by
    rintro receipt (rfl | hr)
    · exact .inr rfl
    · obtain hr | hr := List.mem_append.1 hr
      · exact .inl (.inr hr)
      · exact .inr (List.mem_singleton.1 hr)
  refine ⟨hcurrent, fun receipt hr => ?_, fun receipt hr hs => ?_, fun receipt hr hs => ?_⟩
  · obtain hr | rfl := hshown receipt (.inr hr)
    · exact h.shown hr
    · exact hbacked
  · obtain hr | rfl := hshown receipt hr
    · obtain ⟨hphase, hfinished⟩ := h.sealed receipt hr hs
      exact ⟨hover hphase, hfinished⟩
    · exact hsealed hs
  · obtain hr | rfl := hshown receipt hr
    · obtain ⟨hcommitted, hdown⟩ := h.closed receipt hr hs
      exact ⟨hcommitted, hreceiving hdown⟩
    · exact hclosed hs

/-- A failure is published. -/
theorem Receipted.failed {phase : Phase} (h : s.Receipted) (error : StorageError)
    (hcurrent : ({ s.post (·.fail error) with phase } : Storage).Current)
    (hover : s.phase.over = true → phase.over = true)
    (hreceiving : s.phase.receiving = false → phase.receiving = false) :
    ({ s.post (·.fail error) with phase } : Storage).Receipted := by
  obtain ⟨covered, hfront, hcovers⟩ := h.current.backed
  refine h.posted hcurrent ⟨covered, hfront, hcovers.fail error⟩ hover hreceiving (fun hsealed => ?_) nofun
  obtain ⟨hphase, covered, m, hsettled, hfinish, hcovers⟩ := h.sealed s.receipt (.inl rfl) hsealed
  exact ⟨hover hphase, covered, m, hsettled, hfinish, hcovers.fail error⟩

theorem Receipted.collapsed (h : s.Receipted) (error : StorageError) : (s.collapsed error).Receipted := by
  obtain ⟨covered, hfront, hcovers⟩ := h.current.backed
  exact h.failed error ⟨covered, hfront, hcovers.fail error⟩ (fun _ => rfl) fun _ => rfl

theorem receipted_opened : Storage.opened.Receipted where
  current := Receipt.covers_default
  published receipt hr := by
    rw [List.mem_singleton.1 hr]
    exact ⟨[], List.prefix_rfl, Receipt.covers_default⟩
  sealed receipt hr hsealed := by
    obtain rfl | hr := hr
    · cases hsealed
    · rw [List.mem_singleton.1 hr] at hsealed
      cases hsealed
  closed receipt hr hclosed := by
    obtain rfl | hr := hr
    · cases hclosed
    · rw [List.mem_singleton.1 hr] at hclosed
      cases hclosed

theorem execute_some {work : Work} {store store' : SqliteStore} (h : work.execute store = .ok store') : work.messages ≠ [] := by
  cases work with
  | one message => exact List.cons_ne_nil _ _
  | batch groups =>
    cases groups with
    | nil => cases h
    | cons group groups => exact List.cons_ne_nil _ _

/-- What receipts need of the messages that are settled. -/
structure Ordered (s : Storage) : Prop where
  chained : Spans.Chained Message.firstRecord Message.records 0 s.settled
  stored : s.store.nextRecordSequence = Spans.total Message.records s.settled
  placed : Hitherto Message.Placed s.settled
  agrees : s.store.Agrees s.settled

/-- The receipt of the transaction that the store has committed. -/
theorem Receipted.publishes {work : Work} {deferred : Option Message} {receipt : Receipt} (hs : s.Receipted) (ho : s.Ordered)
    (phase : s.phase = .stored work deferred) (ok : s.receipt.publish s.store work = .ok receipt) :
    ({ s.post (fun _ => receipt) with
      phase := if isFinish work then .closing deferred.toList else .receipted deferred } : Storage).Receipted := by
  have hcurrent := hs.current
  unfold Current at hcurrent
  rw [phase] at hcurrent
  obtain ⟨covered, hsettled, hsome, hcovers⟩ := hcurrent
  have hunsealed := hs.unsealed (by rw [phase]; rfl) (.inl rfl)
  have hpublished := hcovers.publish ok hsome (hsettled ▸ ho.chained) (hsettled ▸ ho.stored) (hsettled ▸ ho.placed)
    (hsettled ▸ ho.agrees)
  rw [← hsettled] at hpublished
  cases hfinish : isFinish work with
  | true =>
    rw [hfinish, if_pos rfl] at hpublished
    have hbacked : s.Backed receipt := ⟨covered, hsettled ▸ List.prefix_append _ _, hpublished⟩
    refine hs.posted hbacked hbacked (fun _ => rfl) (by simp [phase, Phase.receiving]) (fun _ => ⟨rfl, ?_⟩)
      fun hclosed => absurd hclosed (Receipt.publish_state ok hunsealed.2)
    cases work with
    | batch groups => cases hfinish
    | one message =>
      refine ⟨covered, message, hsettled, ?_, hpublished⟩
      cases message <;> first | rfl | cases hfinish
  | false =>
    rw [hfinish, if_neg (by simp)] at hpublished
    refine hs.posted hpublished ⟨_, List.prefix_rfl, hpublished⟩ (by simp [phase, Phase.over])
      (by simp [phase, Phase.receiving]) (fun hsealed => ?_)
      fun hclosed => absurd hclosed (Receipt.publish_state ok hunsealed.2)
    rw [Receipt.publish_sealed ok hfinish, hunsealed.1] at hsealed
    cases hsealed

theorem Receipted.lasts (hs : s.Receipted) {lost : List Message} (_ : s.phase = .leaving lost) :
    ({ s.post lastReceipt with phase := .exiting lost } : Storage).Receipted := by
  obtain ⟨covered, hfront, hcovers⟩ := hs.current.backed
  refine hs.posted ⟨covered, hfront, hcovers.last⟩ ⟨covered, hfront, hcovers.last⟩ (fun _ => rfl) (fun _ => rfl)
    (fun hsealed => ⟨rfl, ?_⟩) fun hclosed => ⟨?_, rfl⟩
  · have hcommitted : s.receipt.terminalSealCommitted = true := by
      unfold lastReceipt at hsealed
      split_ifs at hsealed <;> exact hsealed
    obtain ⟨-, covered, m, hsettled, hfinish, hcovers⟩ := hs.sealed s.receipt (.inl rfl) hcommitted
    exact ⟨covered, m, hsettled, hfinish, hcovers.last⟩
  · unfold lastReceipt at hclosed ⊢
    split_ifs at hclosed ⊢ with hclean hopen
    · exact hclean.2
    · cases hclosed
    · rw [hclosed] at hopen
      exact absurd nofun hopen

theorem Worked.receipted (h : s.Worked s') (hs : s.Receipted) (ho : s.Ordered) : s'.Receipted := by
  have hcurrent := hs.current
  unfold Current at hcurrent
  cases h with
  | deferredJob message phase job =>
    rw [phase] at hcurrent
    exact hs.running (by rw [phase]; rfl) (hcurrent.job job) rfl rfl rfl
  | queuedJob message queue phase head job =>
    rw [phase] at hcurrent
    exact hs.running (by rw [phase]; rfl) (hcurrent.job job) rfl rfl rfl
  | deferredWork message phase work =>
    rw [phase] at hcurrent
    exact hs.running (by rw [phase]; rfl) hcurrent (List.append_nil _).symm rfl rfl
  | queuedWork message queue phase head work =>
    rw [phase] at hcurrent
    exact hs.running (by rw [phase]; rfl) hcurrent (List.append_nil _).symm rfl rfl
  | answered message history runs phase =>
    rw [phase] at hcurrent
    exact hs.running (by rw [phase]; rfl) hcurrent (List.append_nil _).symm rfl rfl
  | gathered groups group queue phase head room =>
    rw [phase] at hcurrent
    exact hs.running (by rw [phase]; rfl) hcurrent (List.append_nil _).symm rfl rfl
  | deferred groups message queue phase head =>
    rw [phase] at hcurrent
    exact hs.running (by rw [phase]; rfl) hcurrent (List.append_nil _).symm rfl rfl
  | executed work deferred store phase committed =>
    rw [phase] at hcurrent
    exact hs.running (by rw [phase]; rfl) ⟨s.settled, rfl, execute_some committed, hcurrent⟩ rfl rfl rfl
  | rejected work deferred error phase refused => exact hs.collapsed error
  | mismatched work deferred error phase refused => exact hs.collapsed error
  | published work deferred receipt phase ok => exact hs.publishes ho phase ok
  | inspected deferred phase =>
    rw [phase] at hcurrent
    exact hs.running (by rw [phase]; rfl) hcurrent (List.append_nil _).symm rfl rfl
  | closed lost phase =>
    rw [phase] at hcurrent
    exact hs.ending rfl (fun _ => rfl) hcurrent rfl rfl rfl
  | left lost phase => exact hs.lasts phase
  | retired lost phase =>
    rw [phase] at hcurrent
    exact hs.ending rfl (fun _ => rfl) hcurrent rfl rfl rfl
  | finished down => exact ⟨hs.current, hs.published, hs.sealed, hs.closed⟩

theorem Broken.receipted (h : s.Broken s') (hs : s.Receipted) : s'.Receipted := by
  cases h with
  | faulted error running => exact hs.collapsed error
  | panicked running => exact hs.ending rfl (fun _ => rfl) hs.current.backed rfl rfl rfl

end Storage

theorem Numbered.settled {s : System layout} (h : Numbered s) :
    Spans.Chained Message.firstRecord Message.records 0 s.storage.settled := by
  have hchained := h.chained
  unfold Storage.sent at hchained
  rw [List.append_assoc] at hchained
  exact hchained.left

theorem Micro.receipted {s s' : System layout} (h : Micro A s s') (ho : s.storage.Ordered) (hs : s.storage.Receipted) :
    s'.storage.Receipted := by
  cases h with
  | worker move granted =>
    exact Storage.work_keeps Storage.Receipted move hs (fun _ h => h.receipted hs ho) fun _ _ h => h.receipted hs
  | marked message failed =>
    suffices hcurrent : ({ s.storage.post (·.fail message) with phase := s.storage.phase } : Storage).Current from
      hs.failed message hcurrent id id
    have hcurrent := hs.current
    unfold Storage.Current at hcurrent ⊢
    dsimp only [Storage.post]
    split at hcurrent
    · obtain ⟨covered, hsettled, hsome, hcovers⟩ := hcurrent
      exact ⟨covered, hsettled, hsome, hcovers.fail message⟩
    · exact hcurrent.fail message
    · exact hcurrent.fail message
    · exact hcurrent.fail message
    · exact hcurrent.fail message
    · obtain ⟨covered, hfront, hcovers⟩ := hs.current.backed
      exact ⟨covered, hfront, hcovers.fail message⟩
  | _ => exact ⟨hs.current, hs.published, hs.sealed, hs.closed⟩

end LabRuntime.Recorder
