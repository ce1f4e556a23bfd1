import LabRuntime.Transport.Serving

/-! Send evidence. The terminal event of an output says that sending started exactly when the adapter
accepted a byte of its request, unless the first answer was not taken into account. -/

namespace LabRuntime

/-- A byte of this transaction was accepted. -/
def Carried (wire : List WireEvent) (id : ℕ) : Prop := ∃ e ∈ wire, e.carried = some id

def WireEvent.asks : WireEvent → Bool
  | .authorize .. => true
  | _ => false

/-- Answers to the first byte of an output that leave no account of it: more bytes than were offered,
or a start that the authorizer does not record. -/
def WireEvent.unrecorded : WireEvent → Bool
  | .write offer (.ok n) => decide (offer.offset = 0) && decide (offer.bytes.length < n)
  | .authorize _ .started (.ok (some _)) => false
  | .authorize _ .started _ => true
  | _ => false

/-- The poll served an output whose first accepted byte was not recorded. -/
def PollRecord.misreports (p : PollRecord) : Bool :=
  p.calls.any WireEvent.asks && p.calls.any WireEvent.unrecorded

namespace ResourceExecutor

variable {ω : Type} {B : Boundary ω} {s s' : ResourceExecutor} {a a' : Active} {now : ℕ}
  {calls wire : List WireEvent} {admitted : List Transaction} {polls : List PollRecord} {id : ℕ}

/-- What a terminal event of an output says against the history of the wire. -/
def Honest (wire : List WireEvent) (event : TransportEvent) : Prop :=
  ∀ intent dispatch record response, event = .outputTerminal intent dispatch record response →
    (record.started = true ↔ Carried wire record.id) ∧ (dispatch.isSome ↔ record.started = true)

/-- What the owner of an output knows of its bytes, with `started` as it would report it. -/
structure Account (wire : List WireEvent) (t : Transaction) (started : Bool) : Prop where
  carried : ∀ output, t.kind = .output output → (started = true ↔ Carried wire t.id)
  dispatch : ∀ output, t.kind = .output output → (output.dispatch.isSome ↔ started = true)
  once : ∀ output, t.kind = .output output → t.retryable = false

theorem Account.honest {t : Transaction} {started : Bool} (h : Account wire t started) {record : TransactionRecord}
    (hid : record.id = t.id) (hstarted : record.started = started) (response : Option (List UInt8)) :
    Honest wire (terminalEvent t record response) := by
  intro intent dispatch record' response' heq
  unfold terminalEvent at heq
  cases hk : t.kind with
  | read => simp [hk] at heq
  | output output =>
    simp only [hk, TransportEvent.outputTerminal.injEq] at heq
    obtain ⟨-, rfl, rfl, -⟩ := heq
    rw [hid, hstarted]
    exact ⟨h.carried output hk, h.dispatch output hk⟩

/-- A fenced output never became active. -/
theorem Account.fenced {t : Transaction} (h : Account wire t false) : Honest wire (s.fencedEvent t) := by
  intro intent dispatch record' response' heq
  unfold fencedEvent at heq
  cases hk : t.kind with
  | read => simp [hk] at heq
  | output output =>
    simp only [hk, TransportEvent.outputTerminal.injEq] at heq
    obtain ⟨-, rfl, rfl, -⟩ := heq
    exact ⟨h.carried output hk, h.dispatch output hk⟩

theorem carried_append (calls : List WireEvent) : Carried (wire ++ calls) id ↔ Carried wire id ∨ Carried calls id := by
  simp [Carried, or_and_right, exists_or]

theorem Quiet.not_carried (h : Quiet calls) : ¬ Carried calls id := by
  rintro ⟨e, he, hid⟩
  simp [h.carried he] at hid

/-- Calls that carry nothing of it leave the account of a transaction. -/
theorem Account.append {t : Transaction} {started : Bool} (h : Account wire t started)
    (hcalls : ¬ Carried calls t.id) : Account (wire ++ calls) t started := by
  refine ⟨fun output hk => ?_, h.dispatch, h.once⟩
  rw [h.carried output hk, carried_append, or_iff_left hcalls]

theorem Honest.append {event : TransportEvent} (h : Honest wire event)
    (hcalls : ∀ id, event.terminalId = some id → ¬ Carried calls id) : Honest (wire ++ calls) event := by
  rintro intent dispatch record response rfl
  obtain ⟨hcarried, hdispatch⟩ := h intent dispatch record response rfl
  refine ⟨?_, hdispatch⟩
  rw [hcarried, carried_append, or_iff_left (hcalls record.id rfl)]

theorem carried_write {pre post : List WireEvent} {n : ℕ} (hpre : Quiet pre) (hpost : Quiet post) :
    Carried (pre ++ .write a.offer (.ok n) :: post) a.transaction.id ↔ 0 < n := by
  rw [← List.singleton_append, carried_append, carried_append, or_iff_right hpre.not_carried,
    or_iff_left hpost.not_carried]
  cases n with
  | zero => simp [Carried, WireEvent.carried]
  | succ n => simp [Carried, WireEvent.carried, Active.offer]

/-- A write phase that the transaction survives accounts for the bytes it sent. -/
theorem Wrote.account (wrote : Wrote a calls a')
    (h : Account wire a.transaction (decide (0 < a.writeOffset))) :
    Account (wire ++ calls) a'.transaction (decide (0 < a'.writeOffset)) := by
  cases wrote with
  | skipped =>
    rw [List.append_nil]
    exact h
  | @accepted pre n hopen offers bound plain =>
    refine ⟨fun output hk => ?_, fun output hk => ?_, h.once⟩
    · have hcarried := h.carried output hk
      rw [carried_append, carried_write offers.quiet quiet_nil, ← hcarried]
      simp only [decide_eq_true_eq]
      omega
    · have hdispatch := h.dispatch output hk
      simp only [decide_eq_true_eq] at hdispatch ⊢
      rw [hdispatch]
      have hplain : a.writeOffset ≠ 0 ∨ n = 0 := by
        obtain hne | hn | hread := plain
        · exact .inl hne
        · exact .inr hn
        · simp [hread] at hk
      omega
  | @started pre n output dispatch hopen offers bound first positive kind =>
    have hpos : 0 < a.writeOffset + n := by omega
    refine ⟨fun output' _ => ?_, fun output' hk => ?_, fun _ _ => h.once output kind⟩
    · simp only [hpos, decide_true, true_iff]
      rw [carried_append]
      exact .inr ((carried_write offers.quiet quiet_authorize).2 positive)
    · obtain rfl : { output with dispatch := some dispatch } = output' := by simpa using hk
      simp [hpos]

/-- Questions precede the offer of an output's first byte. -/
theorem Offers.asks_any {output : OutputTransaction} (h : Offers a calls) (h0 : a.writeOffset = 0)
    (hk : a.transaction.kind = .output output) : calls.any WireEvent.asks = true := by
  cases h with
  | resumed hne => exact absurd h0 hne
  | read hread => simp [hread] at hk
  | validated => rfl

/-- A transaction that is lost keeps its account, if its first byte was recorded. -/
theorem Lost.account (lost : Lost a now calls a') (h : Account wire a.transaction (decide (0 < a.writeOffset)))
    (ok : (calls.any WireEvent.asks && calls.any WireEvent.unrecorded) = false) :
    Account (wire ++ calls) a'.transaction (decide (0 < a'.writeOffset)) := by
  cases lost with
  | expired =>
    rw [List.append_nil]
    exact h
  | @writeFailed pre e intime hopen offers =>
    refine h.append ?_
    rw [carried_append, or_iff_right offers.quiet.not_carried]
    simp [Carried, WireEvent.carried]
  | @overlong pre n intime hopen offers bound =>
    refine ⟨fun output hk => ?_, h.dispatch, h.once⟩
    by_cases h0 : a.writeOffset = 0
    · have hfault : WireEvent.unrecorded (.write a.offer (.ok n)) = true := by
        simp only [WireEvent.unrecorded, Bool.and_eq_true, decide_eq_true_eq]
        exact ⟨h0, bound⟩
      simp [offers.asks_any h0 hk, hfault] at ok
    · -- the first byte was accounted for by an earlier poll
      have hpos : 0 < a.writeOffset := by omega
      have hcarried := h.carried output hk
      simp only [hpos, decide_true, true_iff] at hcarried ⊢
      exact (carried_append _).2 (.inl hcarried)
  | @unstarted pre n output answer intime hopen offers bound first positive kind rejected =>
    have hfault : WireEvent.unrecorded (.authorize output.intent .started answer) = true := by
      unfold WireEvent.unrecorded
      split <;> simp_all
    simp [offers.asks_any first kind, hfault] at ok
  | @readFailed pre a' e bytes intime wrote sent =>
    rw [← List.append_assoc]
    exact (wrote.account h).append quiet_read.not_carried

/-! ### One step -/

/-- What the state of the owner knows of the output it holds. -/
def StateAccount (wire : List WireEvent) : OwnedState → Prop
  | .active a => Account wire a.transaction (decide (0 < a.writeOffset))
  | .recovering r => Account wire r.transaction r.started
  | _ => True

/-- Everything the executor would report of its outputs is true of the wire. -/
structure Truthful (wire : List WireEvent) (waiting : List Transaction) (state : OwnedState)
    (events : List TransportEvent) : Prop where
  waits : ∀ t ∈ waiting, Account wire t false
  state : StateAccount wire state
  events : ∀ event ∈ events, Honest wire event

theorem lostEvents_honest (a : Active) : ∀ event ∈ lostEvents a, Honest wire event := by
  intro event he intent dispatch record response heq
  subst heq
  unfold lostEvents at he
  split at he
  · simp at he
  · split at he <;> simp at he

theorem Served.carried_other {turn : Turn} {t : Transaction} (h : Served s a now calls turn)
    (hne : t.id ≠ a.transaction.id) : ¬ Carried calls t.id := by
  rintro ⟨e, he, hid⟩
  exact hne (h.sends.carried he hid)

theorem Served.truthful {turn : Turn} (h : Served s a now calls turn)
    (account : Account wire a.transaction (decide (0 < a.writeOffset)))
    (hwaiting : ∀ t ∈ s.waiting, Account wire t false ∧ t.id ≠ a.transaction.id) (drained : s.events = [])
    (ok : (calls.any WireEvent.asks && calls.any WireEvent.unrecorded) = false) :
    Truthful (wire ++ calls) turn.2.waiting (turn.1.toOption.getD .idle) turn.2.events := by
  have hwaits : ∀ t ∈ s.waiting, Account (wire ++ calls) t false := fun t ht =>
    (hwaiting t ht).1.append (h.carried_other (hwaiting t ht).2)
  have hfenced : ∀ event ∈ s.queue.map s.fencedEvent, Honest (wire ++ calls) event := by
    intro event he
    obtain ⟨t, ht, rfl⟩ := List.mem_map.1 he
    exact (hwaits t (List.mem_append_right _ ht)).fenced
  refine ⟨fun t ht => hwaits t (h.waiting_subset ht), ?_, ?_⟩
  · cases h with
    | lost lost =>
      rw [enterRecovery_eq]
      split
      · trivial
      · exact lost.account account ok
    | refused | completed => trivial
    | waiting intime wrote => exact wrote.account account
    | overread =>
      rw [enterProtocolRecovery_eq]
      split <;> trivial
    | partly intime wrote =>
      show Account _ _ _
      rw [← List.append_assoc]
      exact (wrote.account account).append quiet_read.not_carried
  · intro event he
    cases h with
    | @lost _ a' lost =>
      have he : event ∈ (s.lose a').events := by
        rw [enterRecovery_eq] at he
        split at he <;> exact he
      simp only [lose, drained, List.nil_append, List.mem_append] at he
      rcases he with he | he
      · exact lostEvents_honest a' event he
      · exact hfenced event he
    | @refused output e intime hopen first kind =>
      simp only [finish, drained, List.nil_append, List.mem_singleton] at he
      subst he
      rw [first] at account
      exact (account.append quiet_authorize.not_carried).honest rfl rfl none
    | waiting => simp [drained] at he
    | @overread _ a' n bytes intime wrote =>
      have he : event ∈ (s.reject a').events := by
        rw [enterProtocolRecovery_eq] at he
        split at he <;> exact he
      simp only [reject, finish, drained, List.nil_append, List.mem_append, List.mem_singleton] at he
      rcases he with rfl | he
      · have hread : Quiet [.read a'.transaction.id (a'.missing + 1) (.ok n) bytes] := quiet_read
        have haccount := (wrote.account account).append hread.not_carried
        rw [List.append_assoc] at haccount
        exact haccount.honest rfl rfl none
      · exact hfenced event he
    | partly => simp [drained] at he
    | @completed _ a' n bytes intime wrote =>
      simp only [finish, drained, List.nil_append, List.mem_singleton] at he
      subst he
      have hread : Quiet [.read a'.transaction.id (a'.missing + 1) (.ok n) bytes] := quiet_read
      have haccount := (wrote.account account).append hread.not_carried
      rw [List.append_assoc] at haccount
      exact haccount.honest rfl rfl _

/-- The end of a recovery reports what the recovery knows. -/
theorem Truthful.report {waiting : List Transaction} {r : Recovery} {events : List TransportEvent}
    (h : Truthful wire waiting (.recovering r) events) (hquiet : Quiet calls) (drained : s.events = []) :
    ∀ event ∈ (s.finish r.transaction .failed r.started none).events, Honest (wire ++ calls) event := by
  intro event he
  simp only [finish, drained, List.nil_append, List.mem_singleton] at he
  subst he
  exact (Account.append h.state hquiet.not_carried).honest rfl rfl none

theorem Progress.truthful {state : OwnedState} {turn : Turn} (h : Progress s now state calls turn)
    (truthful : Truthful wire s.waiting state []) (drained : s.events = [])
    (single : ∀ id, s.tally id + OwnedState.tally state id ≤ 1)
    (ok : (calls.any WireEvent.asks && calls.any WireEvent.unrecorded) = false) :
    Truthful (wire ++ calls) turn.2.waiting (turn.1.toOption.getD .idle) turn.2.events := by
  have hquiet : Quiet calls → ∀ t ∈ s.waiting, Account (wire ++ calls) t false :=
    fun hq t ht => (truthful.waits t ht).append hq.not_carried
  have hnone : ∀ event ∈ s.events, Honest (wire ++ calls) event := by simp [drained]
  cases h with
  | rest => exact ⟨hquiet quiet_nil, trivial, hnone⟩
  | queueExpired next =>
    obtain ⟨hmem, hrest⟩ := takeNext_mem next
    obtain hevents : _ = s.events := takeNext_events next
    refine ⟨fun t ht => hquiet quiet_nil t (hrest t ht), trivial, fun event he => ?_⟩
    simp only [finish, hevents, drained, List.nil_append, List.mem_singleton] at he
    subst he
    exact (hquiet quiet_nil _ hmem).honest rfl rfl none
  | unschedulable next =>
    obtain ⟨-, hrest⟩ := takeNext_mem next
    obtain hevents : _ = s.events := takeNext_events next
    exact ⟨fun t ht => hquiet quiet_nil t (hrest t ht), trivial, by simp [hevents, drained]⟩
  | @begun t s' _ _ _ next intime schedule served =>
    obtain ⟨hmem, hrest⟩ := takeNext_mem next
    refine served.truthful (truthful.waits t hmem) (fun u hu => ⟨truthful.waits u (hrest u hu), ?_⟩)
      ((takeNext_events next).trans drained) ok
    refine ne_of_tally (s := s') ?_ hu
    have htally := tally_takeNext next t.id
    have := single t.id
    rw [List.count_singleton_self] at htally
    show s'.tally t.id = 0
    omega
  | @active a _ _ served =>
    refine served.truthful truthful.state (fun u hu => ⟨truthful.waits u hu, ?_⟩) drained ok
    refine ne_of_tally ?_ hu
    have hown : OwnedState.tally (.active a) a.transaction.id = 1 := by
      simp [OwnedState.tally, OwnedState.transactions]
    have := single a.transaction.id
    omega
  | timedOut => exact ⟨hquiet quiet_nil, trivial, truthful.report quiet_nil drained⟩
  | unrecovered => exact ⟨hquiet quiet_recover, trivial, truthful.report quiet_recover drained⟩
  | recovered =>
    exact ⟨hquiet quiet_recover, trivial,
      truthful.report (s := { s with generation := s.generation + 1 }) quiet_recover drained⟩
  | recovering =>
    exact ⟨hquiet quiet_recover, Account.append truthful.state quiet_recover.not_carried, hnone⟩
  | exhausted | boundaryExhausted | boundaryPending => exact ⟨hquiet quiet_recover, trivial, hnone⟩
  | @retried r intime retryable first queue =>
    refine ⟨fun t ht => ?_, trivial, hnone⟩
    have ht : t ∈ s.safeQueue.toList ++ ({ r.transaction with retries := 1 } :: s.queue) := ht
    rw [List.mem_append, List.mem_cons] at ht
    obtain ht | rfl | ht := ht
    · exact hquiet quiet_recover t (List.mem_append_left _ ht)
    · -- only reads are retried
      have hread : ∀ output, r.transaction.kind ≠ .output output := by
        intro output hk
        have := truthful.state.once output hk
        simp [retryable] at this
      exact ⟨fun output hk => absurd hk (hread output), fun output hk => absurd hk (hread output),
        fun output hk => absurd hk (hread output)⟩
    · exact hquiet quiet_recover t (List.mem_append_right _ ht)
  | boundaryLate =>
    refine ⟨hquiet quiet_nil, trivial, fun event he => ?_⟩
    simp only [drained, List.nil_append, List.mem_singleton] at he
    subst he
    exact fun _ _ _ _ heq => by simp at heq
  | boundaryRecovered | boundaryFailed =>
    refine ⟨hquiet quiet_recover, trivial, fun event he => ?_⟩
    simp only [drained, List.nil_append, List.mem_singleton] at he
    subst he
    exact fun _ _ _ _ heq => by simp at heq
  | offline => exact ⟨hquiet quiet_nil, trivial, hnone⟩

/-- What a poll carries belongs to a transaction the executor owned. -/
theorem Progress.carried_owned {state : OwnedState} {turn : Turn} (h : Progress s now state calls turn)
    (hid : Carried calls id) : 0 < s.tally id + OwnedState.tally state id := by
  have hquiet : ¬ Quiet calls := fun hq => hq.not_carried hid
  obtain ⟨e, he, hcarried⟩ := hid
  cases h with
  | @begun t s' _ _ _ next intime schedule served =>
    obtain rfl : id = t.id := served.sends.carried he hcarried
    have htally := tally_takeNext next t.id
    rw [List.count_singleton_self] at htally
    omega
  | @active a _ _ served =>
    obtain rfl : id = a.transaction.id := served.sends.carried he hcarried
    simp [OwnedState.tally, OwnedState.transactions]
  | rest | queueExpired | unschedulable | timedOut | boundaryLate | offline => exact absurd quiet_nil hquiet
  | recovering | exhausted | retried | recovered | unrecovered | boundaryPending | boundaryExhausted
  | boundaryRecovered | boundaryFailed => exact absurd quiet_recover hquiet

theorem Polled.carried_held {result : Except TransportError (Option TransportEvent)}
    (h : Polled s now calls result s') (hid : Carried calls id) : 0 < s.held id := by
  cases h with
  | backwards | popped => exact absurd hid quiet_nil.not_carried
  | failed _ _ progress => exact progress.carried_owned hid
  | progressed _ _ progress => exact progress.carried_owned hid

/-- One poll reports and keeps the truth about outputs. -/
theorem Polled.truthful {result : Except TransportError (Option TransportEvent)} {taken : List TransportEvent}
    (h : Polled s now calls result s') (truthful : Truthful wire s.waiting s.state (taken ++ s.events))
    (single : ∀ id, s.held id ≤ 1) (ended : ∀ id ∈ terminals taken, ¬ Carried calls id)
    (ok : (calls.any WireEvent.asks && calls.any WireEvent.unrecorded) = false) :
    Truthful (wire ++ calls) s'.waiting s'.state ((taken ++ result.toOption.join.toList) ++ s'.events) := by
  have htaken : ∀ event ∈ taken, Honest (wire ++ calls) event := fun event he =>
    (truthful.events event (List.mem_append_left _ he)).append fun id hid =>
      ended id (List.mem_filterMap.2 ⟨event, he, hid⟩)
  cases h with
  | backwards =>
    rw [List.append_nil]
    simpa [Except.toOption] using truthful
  | @popped event rest later hevents =>
    rw [List.append_nil]
    have heq : taken ++ (Except.ok (ε := TransportError) (some event)).toOption.join.toList ++ rest =
        taken ++ s.events := by rw [hevents]; simp [Except.toOption]
    refine ⟨truthful.waits, truthful.state, fun e he => truthful.events e ?_⟩
    rw [← heq]
    exact he
  | @failed calls e s' later drained progress =>
    have hstart : Truthful wire _ _ [] := ⟨truthful.waits, truthful.state, by simp⟩
    have hprogress := progress.truthful hstart drained single ok
    have hstate : s'.state = .idle := progress.frame.2
    refine ⟨hprogress.waits, ?_, fun event he => ?_⟩
    · rw [hstate]
      exact hprogress.state
    · have he : event ∈ (taken ++ []) ++ s'.events := he
      rw [List.append_nil, List.mem_append] at he
      exact he.elim (htaken event) (hprogress.events event)
  | @progressed calls state s' later drained progress =>
    have hstart : Truthful wire _ _ [] := ⟨truthful.waits, truthful.state, by simp⟩
    have hprogress := progress.truthful hstart drained single ok
    refine ⟨hprogress.waits, hprogress.state, fun event he => ?_⟩
    have he : event ∈ (taken ++ s'.events.head?.toList) ++ s'.events.tail := he
    rw [List.append_assoc, List.mem_append] at he
    refine he.elim (htaken event) fun he => hprogress.events event ?_
    cases hevents : s'.events with
    | nil => simp [hevents] at he
    | cons first rest => simpa [hevents] using he

/-! ### Runs -/

variable {o o' : Owner ω}

structure OwnerTruth (o : Owner ω) : Prop where
  truthful : Truthful o.wire o.executor.waiting o.executor.state (o.taken ++ o.executor.events)
  known : ∀ id, Carried o.wire id → id ∈ o.ids

theorem wire_polled (o : Owner ω) (p : PollRecord) :
    Owner.wire { o with polls := o.polls ++ [p] } = o.wire ++ p.calls := wireOf_snoc p

/-- A new transaction has nothing on the wire. -/
theorem OwnerTruth.admission {t : Transaction} {s : ResourceExecutor} (h : OwnerTruth o) (hnum : o.Numbered)
    (admits : Admits o.executor t) (hwaiting : ∀ u ∈ s.waiting, u ∈ o.executor.waiting ∨ u = t)
    (hstate : s.state = o.executor.state) (hevents : s.events = o.executor.events) :
    OwnerTruth { o with executor := s, admitted := o.admitted ++ [t] } := by
  refine ⟨⟨fun u hu => ?_, hstate ▸ h.truthful.state, hevents ▸ h.truthful.events⟩, fun id hid => ?_⟩
  · obtain hu | rfl := hwaiting u hu
    · exact h.truthful.waits u hu
    · have hfresh : ¬ Carried o.wire u.id := by
        intro hid
        have := hnum.below _ (h.known _ hid)
        rw [admits.id] at this
        exact lt_irrefl _ this
      refine ⟨fun output hk => ?_, fun output hk => ?_, fun output hk => ?_⟩
      · simp only [Bool.false_eq_true, false_iff]
        exact hfresh
      · have horigin := congrArg Transaction.kind admits.origin
        simp only [Transaction.origin, hk, TransactionKind.output.injEq] at horigin
        rw [← horigin]
        simp
      · exact admits.once (by simp [hk, TransactionKind.intent])
  · have hmem := h.known id hid
    unfold Owner.ids at hmem ⊢
    rw [List.map_append, List.mem_append]
    exact .inl hmem

/-- The transactions a retirement ends. -/
theorem Retired.truthful (h : Retired s s') (truthful : Truthful wire s.waiting s.state s.events) :
    Truthful wire s'.waiting s'.state s'.events := by
  have hfenced : ∀ event ∈ s.events ++ s.queue.map s.fencedEvent ++ s.safeQueue.toList.map s.fencedEvent,
      Honest wire event := by
    intro event he
    simp only [List.mem_append, List.mem_map] at he
    obtain (he | ⟨t, ht, rfl⟩) | ⟨t, ht, rfl⟩ := he
    · exact truthful.events event he
    · exact (truthful.waits t (List.mem_append_right _ ht)).fenced
    · exact (truthful.waits t (List.mem_append_left _ ht)).fenced
  refine ⟨fun t ht => by simp [h.shrinks.1] at ht, ?_, fun event he => ?_⟩
  · obtain hstate | hstate := h.shrinks.2
    · rw [hstate]
      exact truthful.state
    · rw [hstate]
      trivial
  · cases h with
    | again => exact hfenced event he
    | unowned => exact hfenced event he
    | active state =>
      have haccount := truthful.state
      rw [state] at haccount
      obtain he | he := List.mem_append.1 he
      · exact hfenced event he
      · rw [List.mem_singleton.1 he]
        exact haccount.honest rfl rfl none
    | recovering state =>
      have haccount := truthful.state
      rw [state] at haccount
      obtain he | he := List.mem_append.1 he
      · exact hfenced event he
      · rw [List.mem_singleton.1 he]
        exact haccount.honest rfl rfl none

/-- Every call keeps the evidence true, unless it is a poll that misreports a first byte. -/
theorem Moved.truthful (h : Moved o o') (htruth : OwnerTruth o) (hnum : o.Numbered)
    (haccounted : ∀ id, o.accounted id ≤ o.ids.count id)
    (ok : ∀ p, o'.polls = o.polls ++ [p] → p.misreports = false) : OwnerTruth o' := by
  have hone : ∀ id, o.accounted id ≤ 1 := fun id =>
    (haccounted id).trans (List.nodup_iff_count_le_one.1 hnum.nodup id)
  cases h with
  | rejected => exact htruth
  | queued admits =>
    refine htruth.admission hnum admits (fun u hu => ?_) rfl rfl
    rw [waiting, ← List.append_assoc, List.mem_append, List.mem_singleton] at hu
    exact hu
  | slotted admits free =>
    refine htruth.admission hnum admits (fun u hu => ?_) rfl rfl
    rw [waiting, List.mem_append, Option.toList_some, List.mem_singleton] at hu
    exact hu.symm.imp_left (List.mem_append_right _)
  | @polled now calls result s w h =>
    have hheld : ∀ id, Carried calls id → 0 < o.accounted id := fun id hid => by
      have := h.carried_held hid
      unfold Owner.accounted
      omega
    refine ⟨?_, fun id hid => ?_⟩
    · show Truthful (Owner.wire { o with polls := o.polls ++ [_] }) _ _ _
      rw [wire_polled]
      refine h.truthful htruth.truthful (fun id => ?_) (fun id hid hcarried => ?_) (ok _ rfl)
      · have := hone id
        unfold Owner.accounted at this
        omega
      · have hheld := h.carried_held hcarried
        have htaken := List.count_pos_iff.2 hid
        have := hone id
        unfold Owner.accounted at this
        omega
    · have hid : Carried (Owner.wire { o with polls := o.polls ++ [_] }) id := hid
      rw [wire_polled, carried_append] at hid
      obtain hid | hid := hid
      · exact htruth.known id hid
      · exact List.count_pos_iff.1 ((hheld id hid).trans_le (haccounted id))
  | fenced idle =>
    refine ⟨⟨fun t ht => htruth.truthful.waits t (List.mem_append_left _ (by simpa [waiting] using ht)), trivial,
      fun event he => ?_⟩, htruth.known⟩
    simp only [List.mem_append, List.mem_map] at he
    obtain he | he | ⟨t, ht, rfl⟩ := he
    · exact htruth.truthful.events event (List.mem_append_left _ he)
    · exact htruth.truthful.events event (List.mem_append_right _ he)
    · exact (htruth.truthful.waits t (List.mem_append_right _ ht)).fenced
  | cancelledSafe slot =>
    exact ⟨⟨fun t ht => htruth.truthful.waits t (List.mem_append_right _ ht), htruth.truthful.state,
      htruth.truthful.events⟩, htruth.known⟩
  | cancelled queue =>
    refine ⟨⟨fun t ht => htruth.truthful.waits t ?_, htruth.truthful.state, htruth.truthful.events⟩, htruth.known⟩
    simp only [waiting, queue, List.mem_append, List.mem_cons] at ht ⊢
    obtain ht | ht | ht := ht
    · exact .inl ht
    · exact .inr (.inl ht)
    · exact .inr (.inr (.inr ht))
  | retired h =>
    have hretired := h.truthful ⟨htruth.truthful.waits, htruth.truthful.state, fun event he =>
      htruth.truthful.events event (List.mem_append_right _ he)⟩
    refine ⟨⟨hretired.waits, hretired.state, fun event he => ?_⟩, htruth.known⟩
    obtain he | he := List.mem_append.1 he
    · exact htruth.truthful.events event (List.mem_append_left _ he)
    · exact hretired.events event he
  | @took event rest events =>
    refine ⟨⟨htruth.truthful.waits, htruth.truthful.state, fun e he => htruth.truthful.events e ?_⟩, htruth.known⟩
    rw [events]
    simpa using he

/-- The polls of a run in which the first byte of an output goes unrecorded. -/
def Owner.misreports (B : Boundary ω) (o : Owner ω) (op : ExecutorOp) : Bool :=
  ((o.step B op).polls.drop o.polls.length).any PollRecord.misreports

theorem run_truthful (fresh : s.Fresh) (w : ω) (ops : List ExecutorOp)
    (ok : ¬ History.Happens (Owner.step B) (fun o op => o.misreports B op = true) (Owner.start s w) ops) :
    OwnerTruth (Owner.run B s w ops) := by
  revert ok
  refine History.run_induction (I := fun ops (o : Owner ω) =>
    ¬ History.Happens (Owner.step B) (fun o op => o.misreports B op = true) (Owner.start s w) ops → OwnerTruth o)
    ?_ ?_ ops
  · intro _
    obtain ⟨hq, hf, ht, he⟩ := fresh
    refine ⟨⟨?_, ?_, ?_⟩, ?_⟩
    · simp [Owner.start, waiting, hq, hf]
    · simp [Owner.start, ht, StateAccount]
    · simp [Owner.start, he]
    · rintro id ⟨e, he, -⟩
      cases he
  · intro ops op ih ok
    rw [History.happens_snoc, not_or] at ok
    have hnum : (Owner.run B s w ops).Numbered := run_numbered s w ops
    refine (step_moved _ op).truthful (ih ok.1) hnum (run_accounted_le fresh w ops) fun p hp => ?_
    have hok := ok.2
    rw [Owner.misreports, hp, List.drop_left] at hok
    simpa using hok

end ResourceExecutor
end LabRuntime
