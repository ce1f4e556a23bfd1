import LabRuntime.Transport.Owner

/-! Where every admitted transaction is: owned, cancelled, or ended by one terminal event. Each
call moves transactions between these places and loses or doubles none, unless a poll runs into a
duration overflow or an exhausted counter. -/

namespace LabRuntime

/-- The poll ran into a duration overflow or an exhausted counter. -/
def PollRecord.overflowed (p : PollRecord) : Bool :=
  match p.result with
  | .error .invalidTransaction | .error .counterExhausted => true
  | _ => false

namespace ResourceExecutor

/-- How often an id waits in a queue or is reported by an event not delivered yet. -/
def tally (s : ResourceExecutor) (id : ℕ) : ℕ :=
  (s.waiting.map Transaction.id).count id + (terminals s.events).count id

def OwnedState.tally (state : OwnedState) (id : ℕ) : ℕ := (state.transactions.map Transaction.id).count id

variable {ω : Type} {B : Boundary ω} {s s' : ResourceExecutor} {a a' : Active} {now : ℕ}
  {calls : List WireEvent} {o o' : Owner ω} {state : OwnedState}

@[simp] theorem terminalEvent_id (t : Transaction) (record : TransactionRecord) (response : Option (List UInt8)) :
    (terminalEvent t record response).terminalId = some record.id := by
  unfold terminalEvent
  cases t.kind <;> rfl

@[simp] theorem terminals_terminalEvent (t : Transaction) (record : TransactionRecord)
    (response : Option (List UInt8)) : terminals [terminalEvent t record response] = [record.id] := by
  simp [terminals]

@[simp] theorem fencedEvent_id (t : Transaction) : (s.fencedEvent t).terminalId = some t.id := by
  unfold fencedEvent
  cases t.kind <;> rfl

theorem terminals_fenced (ts : List Transaction) : terminals (ts.map s.fencedEvent) = ts.map Transaction.id := by
  induction ts with
  | nil => rfl
  | cons t ts ih =>
    rw [List.map_cons, List.map_cons, ← ih]
    simp [terminals]

theorem terminals_lost (a : Active) : terminals (lostEvents a) = [] := by
  unfold lostEvents
  split
  · rfl
  · split <;> rfl

theorem tally_finish (t : Transaction) (outcome : TransactionOutcome) (started : Bool)
    (response : Option (List UInt8)) (id : ℕ) :
    (s.finish t outcome started response).tally id = s.tally id + [t.id].count id := by
  simp only [tally, finish, waiting, terminals_append, terminals_terminalEvent, terminalRecord, List.count_append]
  omega

theorem tally_lose (a : Active) (id : ℕ) : (s.lose a).tally id = s.tally id := by
  simp only [tally, lose, waiting, terminals_append, terminals_lost, terminals_fenced, List.map_append,
    List.count_append, List.append_nil]
  omega

theorem tally_reject (a : Active) (id : ℕ) : (s.reject a).tally id = s.tally id + [a.transaction.id].count id := by
  rw [← tally_finish a.transaction .failed (decide (a.writeOffset > 0)) none]
  simp only [tally, reject, finish, waiting, terminals_append, terminals_fenced, List.map_append,
    List.count_append, List.append_nil]
  omega

/-- The next transaction leaves the queue it waited in. -/
theorem tally_takeNext {t : Transaction} (h : s.takeNext = (some t, s')) (id : ℕ) :
    s'.tally id + [t.id].count id = s.tally id := by
  obtain ⟨hslot, rfl⟩ | ⟨hslot, rest, hqueue, rfl⟩ := takeNext_some h
  · simp only [tally, waiting, hslot, Option.toList_some, Option.toList_none, List.map_append, List.count_append,
      List.map_cons, List.map_nil, List.nil_append]
    omega
  · simp only [tally, waiting, hslot, hqueue, Option.toList_none, List.nil_append, List.map_cons, List.count_cons,
      List.count_nil]
    omega

/-- A transaction that no tally counts does not wait. -/
theorem ne_of_tally {id : ℕ} {t : Transaction} (h : s.tally id = 0) (ht : t ∈ s.waiting) : t.id ≠ id := by
  rintro rfl
  have hpos : 0 < (s.waiting.map Transaction.id).count t.id :=
    List.count_pos_iff.2 (List.mem_map_of_mem ht)
  unfold tally at h
  omega

theorem takeNext_mem {t : Transaction} (h : s.takeNext = (some t, s')) :
    t ∈ s.waiting ∧ ∀ u ∈ s'.waiting, u ∈ s.waiting := by
  obtain ⟨hslot, rfl⟩ | ⟨hslot, rest, hqueue, rfl⟩ := takeNext_some h
  · refine ⟨by simp [ResourceExecutor.waiting, hslot], fun u hu => ?_⟩
    have : u ∈ s.queue := by simpa [ResourceExecutor.waiting] using hu
    exact List.mem_append_right _ this
  · refine ⟨by simp [ResourceExecutor.waiting, hslot, hqueue], fun u hu => ?_⟩
    have : u ∈ rest := by simpa [ResourceExecutor.waiting, hslot] using hu
    simp [ResourceExecutor.waiting, hqueue, this]

theorem Wrote.id (h : Wrote a calls a') : a'.transaction.id = a.transaction.id := by
  cases h <;> rfl

theorem Lost.id (h : Lost a now calls a') : a'.transaction.id = a.transaction.id := by
  cases h with
  | readFailed _ wrote _ => exact wrote.id
  | expired | writeFailed | overlong | unstarted => rfl

/-- Whatever happens to an active transaction, it stays owned or is ended once. -/
theorem Served.tally {turn : Turn} (h : Served s a now calls turn) (hturn : turn = (.ok state, s')) (id : ℕ) :
    s'.tally id + OwnedState.tally state id = s.tally id + [a.transaction.id].count id := by
  cases h with
  | lost hlost =>
    rw [enterRecovery_eq] at hturn
    split at hturn
    · simp at hturn
    · obtain ⟨rfl, rfl⟩ : _ = state ∧ _ = s' := by simpa using hturn
      rw [tally_lose, ← hlost.id]
      rfl
  | refused =>
    obtain ⟨rfl, rfl⟩ : _ = state ∧ _ = s' := by simpa using hturn
    rw [tally_finish]
    rfl
  | waiting _ wrote =>
    obtain ⟨rfl, rfl⟩ : _ = state ∧ _ = s' := by simpa using hturn
    rw [← wrote.id]
    rfl
  | overread _ wrote =>
    rw [enterProtocolRecovery_eq] at hturn
    split at hturn
    · simp at hturn
    · obtain ⟨rfl, rfl⟩ : _ = state ∧ _ = s' := by simpa using hturn
      rw [tally_reject, wrote.id]
      rfl
  | partly _ wrote =>
    obtain ⟨rfl, rfl⟩ : _ = state ∧ _ = s' := by simpa using hturn
    rw [← wrote.id]
    rfl
  | completed _ wrote =>
    obtain ⟨rfl, rfl⟩ : _ = state ∧ _ = s' := by simpa using hturn
    rw [tally_finish, wrote.id]
    rfl

/-- A turn that keeps the owner going keeps every transaction. -/
theorem Progress.tally {st : OwnedState} {turn : Turn} (h : Progress s now st calls turn)
    (hturn : turn = (.ok state, s')) (id : ℕ) :
    s'.tally id + OwnedState.tally state id = s.tally id + OwnedState.tally st id := by
  cases h with
  | rest | recovering | boundaryPending | offline =>
    obtain ⟨rfl, rfl⟩ : _ = state ∧ _ = s' := by simpa using hturn
    rfl
  | unschedulable | exhausted | boundaryExhausted => simp at hturn
  | queueExpired next =>
    obtain ⟨rfl, rfl⟩ : _ = state ∧ _ = s' := by simpa using hturn
    rw [tally_finish]
    exact tally_takeNext next id
  | begun next _ _ served =>
    rw [served.tally hturn id]
    exact tally_takeNext next id
  | active served => exact served.tally hturn id
  | timedOut | unrecovered =>
    obtain ⟨rfl, rfl⟩ : _ = state ∧ _ = s' := by simpa using hturn
    exact tally_finish ..
  | recovered =>
    obtain ⟨rfl, rfl⟩ : _ = state ∧ _ = s' := by simpa using hturn
    exact tally_finish ..
  | retried =>
    obtain ⟨rfl, rfl⟩ : _ = state ∧ _ = s' := by simpa using hturn
    simp only [ResourceExecutor.tally, waiting, OwnedState.tally, OwnedState.transactions, List.map_append,
      List.map_cons, List.map_nil, List.count_append, List.count_cons, List.count_nil]
    omega
  | boundaryLate | boundaryRecovered | boundaryFailed =>
    obtain ⟨rfl, rfl⟩ : _ = state ∧ _ = s' := by simpa using hturn
    simp [ResourceExecutor.tally, waiting, OwnedState.tally, OwnedState.transactions]

theorem Served.error {turn : Turn} {e : TransportError} (h : Served s a now calls turn)
    (hturn : turn = (.error e, s')) : e = .invalidTransaction := by
  cases h with
  | lost =>
    rw [enterRecovery_eq] at hturn
    split at hturn
    · obtain ⟨rfl, -⟩ : _ = e ∧ _ = s' := by simpa using hturn
      rfl
    · simp at hturn
  | overread =>
    rw [enterProtocolRecovery_eq] at hturn
    split at hturn
    · obtain ⟨rfl, -⟩ : _ = e ∧ _ = s' := by simpa using hturn
      rfl
    · simp at hturn
  | refused | waiting | partly | completed => simp at hturn

/-- A turn that stops the owner overflowed a duration or exhausted the generation. -/
theorem Progress.error {st : OwnedState} {turn : Turn} {e : TransportError} (h : Progress s now st calls turn)
    (hturn : turn = (.error e, s')) : e = .invalidTransaction ∨ e = .counterExhausted := by
  cases h with
  | unschedulable =>
    obtain ⟨rfl, -⟩ : _ = e ∧ _ = s' := by simpa using hturn
    exact .inl rfl
  | exhausted | boundaryExhausted =>
    obtain ⟨rfl, -⟩ : _ = e ∧ _ = s' := by simpa using hturn
    exact .inr rfl
  | begun _ _ _ served => exact .inl (served.error hturn)
  | active served => exact .inl (served.error hturn)
  | rest | queueExpired | timedOut | recovering | retried | recovered | unrecovered | boundaryLate
  | boundaryPending | boundaryRecovered | boundaryFailed | offline => simp at hturn

theorem Served.tally_error {turn : Turn} {e : TransportError} (h : Served s a now calls turn)
    (hturn : turn = (.error e, s')) (id : ℕ) : s'.tally id ≤ s.tally id + [a.transaction.id].count id := by
  cases h with
  | lost =>
    rw [enterRecovery_eq] at hturn
    split at hturn
    · obtain ⟨-, rfl⟩ : _ = e ∧ _ = s' := by simpa using hturn
      rw [tally_lose]
      exact Nat.le_add_right _ _
    · simp at hturn
  | overread _ wrote =>
    rw [enterProtocolRecovery_eq] at hturn
    split at hturn
    · obtain ⟨-, rfl⟩ : _ = e ∧ _ = s' := by simpa using hturn
      rw [tally_reject, wrote.id]
    · simp at hturn
  | refused | waiting | partly | completed => simp at hturn

theorem Progress.tally_error {st : OwnedState} {turn : Turn} {e : TransportError} (h : Progress s now st calls turn)
    (hturn : turn = (.error e, s')) (id : ℕ) : s'.tally id ≤ s.tally id + OwnedState.tally st id := by
  cases h with
  | unschedulable next =>
    obtain ⟨-, rfl⟩ : _ = e ∧ _ = s' := by simpa using hturn
    rw [← tally_takeNext next id]
    omega
  | exhausted | boundaryExhausted =>
    obtain ⟨-, rfl⟩ : _ = e ∧ _ = s' := by simpa using hturn
    exact Nat.le_add_right _ _
  | begun next _ _ served =>
    refine (served.tally_error hturn id).trans ?_
    dsimp only
    rw [tally_takeNext next id]
    exact Nat.le_add_right _ _
  | active served => exact served.tally_error hturn id
  | rest | queueExpired | timedOut | recovering | retried | recovered | unrecovered | boundaryLate
  | boundaryPending | boundaryRecovered | boundaryFailed | offline => simp at hturn

/-- Owned, or ended by an event not delivered yet. -/
def held (s : ResourceExecutor) (id : ℕ) : ℕ := s.tally id + OwnedState.tally s.state id

theorem held_tail (events : List TransportEvent) (id : ℕ) :
    held { s with events := events.tail } id + (terminals events.head?.toList).count id =
      held { s with events := events } id := by
  cases events with
  | nil => rfl
  | cons event rest =>
    have hcons : terminals (event :: rest) = terminals [event] ++ terminals rest :=
      terminals_append [event] rest
    simp only [held, ResourceExecutor.tally, waiting, List.tail_cons, List.head?_cons, Option.toList_some, hcons,
      List.count_append]
    omega

/-- A poll that does not overflow reports what it no longer holds. -/
theorem Polled.held {result : Except TransportError (Option TransportEvent)} (h : Polled s now calls result s')
    (hok : ∀ e, result = .error e → e ≠ .invalidTransaction ∧ e ≠ .counterExhausted) (id : ℕ) :
    s'.held id + (terminals result.toOption.join.toList).count id = s.held id := by
  cases h with
  | backwards => simp [Except.toOption]
  | popped _ hevents =>
    have h := held_tail (s := { s with lastPoll := now }) s.events id
    rw [hevents] at h
    exact h.trans (by rw [← hevents]; rfl)
  | failed _ _ progress =>
    obtain h | h := progress.error rfl
    · exact absurd h (hok _ rfl).1
    · exact absurd h (hok _ rfl).2
  | @progressed _ state t _ _ progress =>
    have h := held_tail (s := { t with state := state }) t.events id
    exact h.trans (progress.tally rfl id)

/-- A poll that overflows may drop a transaction; none doubles one. -/
theorem Polled.held_le {result : Except TransportError (Option TransportEvent)} (h : Polled s now calls result s')
    (id : ℕ) : s'.held id + (terminals result.toOption.join.toList).count id ≤ s.held id := by
  cases h with
  | backwards => exact ((Polled.backwards ‹_›).held (by simp) id).le
  | popped later hevents => exact ((Polled.popped later hevents).held (by simp) id).le
  | failed _ _ progress =>
    have htally := progress.tally_error rfl id
    have hstate : s'.state = .idle := progress.frame.2
    show s'.tally id + OwnedState.tally s'.state id + 0 ≤ s.held id
    rw [hstate]
    exact htally
  | progressed later drained progress => exact ((Polled.progressed later drained progress).held (by simp) id).le

/-- Retirement ends everything that waits, and the transaction on the wire. -/
theorem Retired.held (h : Retired s s') (id : ℕ) : s'.held id = s.held id := by
  have hfenced : (terminals (s.events ++ s.queue.map s.fencedEvent ++ s.safeQueue.toList.map s.fencedEvent)).count id =
      s.tally id := by
    simp only [ResourceExecutor.tally, waiting, terminals_append, terminals_fenced, List.map_append, List.count_append]
    omega
  cases h with
  | again =>
    simp only [ResourceExecutor.held, ← hfenced]
    simp [ResourceExecutor.tally, waiting]
  | active state =>
    simp only [ResourceExecutor.held, ← hfenced, state]
    simp only [ResourceExecutor.tally, waiting, finish, terminalRecord, OwnedState.tally, OwnedState.transactions,
      terminals_append, terminals_terminalEvent, List.count_append, Option.toList_none, List.nil_append, List.map_nil,
      List.map_cons, List.count_nil]
    omega
  | recovering state =>
    simp only [ResourceExecutor.held, ← hfenced, state]
    simp only [ResourceExecutor.tally, waiting, finish, terminalRecord, OwnedState.tally, OwnedState.transactions,
      terminals_append, terminals_terminalEvent, List.count_append, Option.toList_none, List.nil_append, List.map_nil,
      List.map_cons, List.count_nil]
    omega
  | unowned state =>
    simp only [ResourceExecutor.held, ← hfenced, OwnedState.tally, state]
    simp [ResourceExecutor.tally, waiting, OwnedState.transactions]

/-- How often the history of a run accounts for an id. -/
def Owner.accounted (o : Owner ω) (id : ℕ) : ℕ :=
  o.executor.held id + o.cancelled.count id + (terminals o.taken).count id

def Owner.ids (o : Owner ω) : List ℕ := o.admitted.map Transaction.id

/-- Calls other than polls account for what they admit and for nothing else; polls as they report. -/
theorem Moved.accounted_or (h : Moved o o') (id : ℕ) :
    o'.accounted id + o.ids.count id = o.accounted id + o'.ids.count id ∨
      ∃ now calls result s, Polled o.executor now calls result s ∧
        { time := now, calls := calls, result := result } ∈ o'.polls ∧ o'.ids = o.ids ∧
        o'.accounted id + o.executor.held id =
          o.accounted id + s.held id + (terminals result.toOption.join.toList).count id := by
  cases h with
  | rejected => exact .inl rfl
  | queued =>
    refine .inl ?_
    simp only [Owner.accounted, Owner.ids, held, tally, waiting, List.map_append, List.count_append]
    omega
  | slotted _ free =>
    refine .inl ?_
    simp only [Owner.accounted, Owner.ids, held, tally, waiting, free, Option.toList_none, Option.toList_some,
      List.map_append, List.nil_append, List.count_append]
    omega
  | @polled now calls result s w h =>
    refine .inr ⟨now, calls, result, s, h, by simp, rfl, ?_⟩
    simp only [Owner.accounted, terminals_append, List.count_append]
    omega
  | fenced idle =>
    refine .inl ?_
    simp only [Owner.accounted, Owner.ids, held, tally, waiting, idle, terminals_append, terminals_fenced,
      List.map_append, List.count_append, OwnedState.tally, OwnedState.transactions, List.map_nil, List.count_nil]
    omega
  | cancelledSafe slot =>
    refine .inl ?_
    simp only [Owner.accounted, Owner.ids, held, tally, waiting, slot, Option.toList_none, Option.toList_some,
      List.map_append, List.map_cons, List.map_nil, List.nil_append, List.count_append]
    omega
  | cancelled queue =>
    refine .inl ?_
    simp only [Owner.accounted, Owner.ids, held, tally, waiting, queue, List.map_append, List.map_cons,
      List.count_append, List.count_cons, List.count_nil]
    omega
  | retired h =>
    refine .inl ?_
    simp only [Owner.accounted, Owner.ids, h.held]
  | @took event rest events =>
    have hcons : terminals (event :: rest) = terminals [event] ++ terminals rest := terminals_append [event] rest
    refine .inl ?_
    simp only [Owner.accounted, Owner.ids, held, tally, waiting, events, hcons, terminals_append, List.count_append]
    omega

/-- Every call accounts for what it admits and for nothing else, unless a poll overflows. -/
theorem Moved.accounted (h : Moved o o') (hok : ∀ p ∈ o'.polls, p.overflowed = false) (id : ℕ) :
    o'.accounted id + o.ids.count id = o.accounted id + o'.ids.count id := by
  obtain h | ⟨now, calls, result, s, hpolled, hmem, hids, hsum⟩ := h.accounted_or id
  · exact h
  · have hresult : ∀ e, result = .error e → e ≠ .invalidTransaction ∧ e ≠ .counterExhausted := by
      rintro e rfl
      have := hok _ hmem
      constructor <;> rintro rfl <;> simp [PollRecord.overflowed] at this
    have := hpolled.held hresult id
    rw [hids]
    omega

/-- No call accounts for more than what it admits. -/
theorem Moved.accounted_le (h : Moved o o') (id : ℕ) :
    o'.accounted id + o.ids.count id ≤ o.accounted id + o'.ids.count id := by
  obtain h | ⟨now, calls, result, s, hpolled, hmem, hids, hsum⟩ := h.accounted_or id
  · exact h.le
  · have := hpolled.held_le id
    rw [hids]
    omega

/-! ### Identities -/

/-- Ids are given out once, in increasing order. -/
structure Owner.Numbered (o : Owner ω) : Prop where
  nodup : o.ids.Nodup
  below : ∀ id ∈ o.ids, id < o.executor.nextTransaction

theorem Owner.Numbered.admission {s : ResourceExecutor} {t : Transaction} (h : o.Numbered)
    (admits : Admits o.executor t) (hnext : s.nextTransaction = o.executor.nextTransaction + 1) :
    Owner.Numbered { o with executor := s, admitted := o.admitted ++ [t] } := by
  have hids : Owner.ids { o with executor := s, admitted := o.admitted ++ [t] } = o.ids ++ [t.id] := by
    simp [Owner.ids]
  constructor
  · rw [hids, List.nodup_append]
    refine ⟨h.nodup, by simp, ?_⟩
    intro id hid id' hid' heq
    have := h.below id hid
    rw [List.mem_singleton, admits.id] at hid'
    omega
  · intro id hid
    rw [hids, List.mem_append, List.mem_singleton, admits.id] at hid
    rcases hid with hid | hid
    · have := h.below id hid
      show id < s.nextTransaction
      omega
    · show id < s.nextTransaction
      omega

theorem Moved.numbered (h : Moved o o') (hnum : o.Numbered) : o'.Numbered := by
  cases h with
  | rejected => exact hnum
  | queued admits => exact hnum.admission admits rfl
  | slotted admits => exact hnum.admission admits rfl
  | polled h => exact ⟨hnum.nodup, fun id hid => h.frame.next ▸ hnum.below id hid⟩
  | fenced | cancelledSafe | cancelled | took => exact ⟨hnum.nodup, hnum.below⟩
  | retired h => exact ⟨hnum.nodup, fun id hid => h.frame.next ▸ hnum.below id hid⟩

/-! ### The balance of a run -/

theorem run_numbered (s : ResourceExecutor) (w : ω) (ops : List ExecutorOp) : (Owner.run B s w ops).Numbered := by
  refine History.Stable.after (I := Owner.Numbered) (fun o op h => (step_moved o op).numbered h) ?_ ops
  exact ⟨List.nodup_nil, fun id hid => by cases hid⟩

theorem start_accounted (fresh : s.Fresh) (w : ω) (id : ℕ) :
    (Owner.start s w).accounted id = (Owner.start s w).ids.count id := by
  obtain ⟨hq, hf, ht, he⟩ := fresh
  simp [Owner.accounted, Owner.start, Owner.ids, held, tally, waiting, OwnedState.tally, hq, hf, ht, he,
    OwnedState.transactions]

/-- The history of a run whose polls do not overflow accounts for exactly what it admitted. -/
theorem run_accounted (fresh : s.Fresh) (w : ω) (ops : List ExecutorOp)
    (hok : ∀ p ∈ (Owner.run B s w ops).polls, p.overflowed = false) (id : ℕ) :
    (Owner.run B s w ops).accounted id = (Owner.run B s w ops).ids.count id := by
  revert hok
  refine History.run_induction (I := fun _ (o : Owner ω) => (∀ p ∈ o.polls, p.overflowed = false) →
    o.accounted id = o.ids.count id) ?_ ?_ ops
  · exact fun _ => start_accounted fresh w id
  · intro ops op ih hok
    have hmoved := step_moved (B := B) (History.after (Owner.step B) (Owner.start s w) ops) op
    have hstep := hmoved.accounted hok id
    have := ih (fun p hp => hok p (hmoved.polls_subset hp))
    omega

/-- No run accounts for an id more often than it admitted it. -/
theorem run_accounted_le (fresh : s.Fresh) (w : ω) (ops : List ExecutorOp) (id : ℕ) :
    (Owner.run B s w ops).accounted id ≤ (Owner.run B s w ops).ids.count id := by
  refine History.run_induction (I := fun _ (o : Owner ω) => o.accounted id ≤ o.ids.count id) ?_ ?_ ops
  · exact (start_accounted fresh w id).le
  · intro ops op ih
    have := (step_moved (B := B) (History.after (Owner.step B) (Owner.start s w) ops) op).accounted_le id
    omega

theorem run_accounted_le_one (fresh : s.Fresh) (w : ω) (ops : List ExecutorOp) (id : ℕ) :
    (Owner.run B s w ops).accounted id ≤ 1 :=
  (run_accounted_le fresh w ops id).trans (List.nodup_iff_count_le_one.1 (run_numbered s w ops).nodup id)

theorem run_held_le (fresh : s.Fresh) (w : ω) (ops : List ExecutorOp) (id : ℕ) :
    (Owner.run B s w ops).executor.held id ≤ 1 := by
  have := run_accounted_le_one (B := B) fresh w ops id
  unfold Owner.accounted at this
  omega

/-- How often an id is queued, in the safe slot, on the wire, cancelled, or ended. -/
def Owner.places (o : Owner ω) (id : ℕ) : ℕ :=
  (o.executor.queue.map Transaction.id).count id +
    (o.executor.safeQueue.toList.map Transaction.id).count id +
    (o.executor.state.transactions.map Transaction.id).count id +
    o.cancelled.count id +
    (terminals o.executor.events).count id + (terminals o.taken).count id

theorem Owner.places_eq (o : Owner ω) (id : ℕ) : o.places id = o.accounted id := by
  simp only [places, accounted, held, tally, waiting, OwnedState.tally, List.map_append, List.count_append]
  omega

/-- In every run without overflow, every admitted transaction is in exactly one place, and is there
once: owned, cancelled, or ended by a terminal event that is queued or was taken. -/
theorem transaction_accounted {s : ResourceExecutor} (made : Made s) (w : ω) (ops : List ExecutorOp)
    (hok : ∀ p ∈ (Owner.run B s w ops).polls, p.overflowed = false) :
    (Owner.run B s w ops).ids.Nodup ∧
      ∀ id, (Owner.run B s w ops).places id = if id ∈ (Owner.run B s w ops).ids then 1 else 0 := by
  have hnodup := (run_numbered (B := B) s w ops).nodup
  refine ⟨hnodup, fun id => ?_⟩
  rw [Owner.places_eq, run_accounted made.fresh w ops hok, hnodup.count]

/-- Three reads: the first fails on the wire and is retried, the second is fenced with it, the third
is admitted after the recovery and cancelled. -/
def lossyRun : List ExecutorOp :=
  [pollRead 0 true, pollRead 0 false, .poll 1, .takeEvent, .poll 2, pollRead 2 false, .cancelQueuedOutput 3,
    .poll 3, .tryShutdown]

theorem transaction_accounted_lossyRun :
    (∀ p ∈ (Owner.run scripted newExecutor { writes := [.error .other] } lossyRun).polls, p.overflowed = false) ∧
      (Owner.run scripted newExecutor { writes := [.error .other] } lossyRun).ids.Nodup ∧
      ∀ id, (Owner.run scripted newExecutor { writes := [.error .other] } lossyRun).places id =
        if id ∈ (Owner.run scripted newExecutor { writes := [.error .other] } lossyRun).ids then 1 else 0 := by
  have hok : ∀ p ∈ (Owner.run scripted newExecutor { writes := [.error .other] } lossyRun).polls,
      p.overflowed = false := by decide
  exact ⟨hok, transaction_accounted newExecutor_made _ _ hok⟩

example : (Owner.run scripted newExecutor { writes := [.error .other] } lossyRun).ids = [1, 2, 3] := by decide

end ResourceExecutor
end LabRuntime
