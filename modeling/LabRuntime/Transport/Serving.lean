import LabRuntime.Transport.Wire

/-! One transaction at a time. A poll offers at most the rest of one request; what it leaves on the
wire is answered, recovered from, or still owned by the transaction that put it there. -/

namespace LabRuntime
namespace ResourceExecutor

variable {ω : Type} {B : Boundary ω} {s s' : ResourceExecutor} {a a' : Active} {now : ℕ}
  {calls wire more : List WireEvent} {admitted : List Transaction} {polls : List PollRecord} {id : ℕ}

/-! ### What one poll offers -/

/-- No call of the list writes. -/
def Quiet (calls : List WireEvent) : Prop := ∀ e ∈ calls, ∀ offer result, e ≠ .write offer result

theorem Quiet.carried (h : Quiet calls) {e : WireEvent} (he : e ∈ calls) : e.carried = none := by
  cases e with
  | write offer result => exact absurd rfl (h _ he offer result)
  | read | recover | shutdown | authorize => rfl

theorem Quiet.offers (h : Quiet calls) {e : WireEvent} (he : e ∈ calls) (id : ℕ) : e.offers id = false := by
  cases e with
  | write offer result => exact absurd rfl (h _ he offer result)
  | read | recover | shutdown | authorize => rfl

theorem quiet_nil : Quiet [] := fun _ he => by cases he

theorem Quiet.append (h : Quiet calls) (h' : Quiet more) : Quiet (calls ++ more) := by
  intro e he
  rcases List.mem_append.1 he with he | he
  · exact h e he
  · exact h' e he

/-- The calls a poll makes for an active transaction: at most one write, of the rest of its request. -/
inductive Sends (a : Active) (now : ℕ) : List WireEvent → Prop
  | quiet {c} (h : Quiet c) : Sends a now c
  | offer {pre post result} (intime : now < a.executionDeadline)
    (open_ : a.writeOffset < a.transaction.request.length) (offers : Offers a pre) (rest : Quiet post) :
    Sends a now (pre ++ .write a.offer result :: post)

theorem Sends.append (h : Sends a now calls) (hmore : Quiet more) : Sends a now (calls ++ more) := by
  cases h with
  | quiet h => exact .quiet (h.append hmore)
  | offer intime hopen offers rest =>
    rw [List.append_assoc, List.cons_append]
    exact .offer intime hopen offers (rest.append hmore)

theorem Offers.quiet (h : Offers a calls) : Quiet calls := by
  intro e he
  cases h with
  | resumed | read => cases he
  | validated =>
    rw [List.mem_singleton] at he
    subst he
    simp

theorem quiet_read {id length : ℕ} {result : Except TransportIoError ℕ} {bytes : List UInt8} :
    Quiet [.read id length result bytes] := by
  intro e he
  rw [List.mem_singleton] at he
  subst he
  simp

theorem quiet_recover {result : Except TransportIoError RecoveryStatus} : Quiet [.recover result] := by
  intro e he
  rw [List.mem_singleton] at he
  subst he
  simp

theorem quiet_authorize {intent : OutputIntent} {step : AuthorizationStep}
    {answer : Except Unit (Option DispatchId)} : Quiet [.authorize intent step answer] := by
  intro e he
  rw [List.mem_singleton] at he
  subst he
  simp

theorem Wrote.sends (h : Wrote a calls a') (intime : now < a.executionDeadline) : Sends a now calls := by
  cases h with
  | skipped => exact .quiet quiet_nil
  | accepted hopen offers => exact .offer intime hopen offers quiet_nil
  | started hopen offers => exact .offer intime hopen offers quiet_authorize

theorem Lost.sends (h : Lost a now calls a') : Sends a now calls := by
  cases h with
  | expired => exact .quiet quiet_nil
  | writeFailed intime hopen offers => exact .offer intime hopen offers quiet_nil
  | overlong intime hopen offers => exact .offer intime hopen offers quiet_nil
  | unstarted intime hopen offers => exact .offer intime hopen offers quiet_authorize
  | readFailed intime wrote => exact (wrote.sends intime).append quiet_read

theorem Served.sends {turn : Turn} (h : Served s a now calls turn) : Sends a now calls := by
  cases h with
  | lost h => exact h.sends
  | refused => exact .quiet quiet_authorize
  | waiting intime wrote => exact wrote.sends intime
  | overread intime wrote => exact (wrote.sends intime).append quiet_read
  | partly intime wrote => exact (wrote.sends intime).append quiet_read
  | completed intime wrote => exact (wrote.sends intime).append quiet_read

/-- Every call about an active transaction is about that transaction. -/
theorem Sends.carried (h : Sends a now calls) {e : WireEvent} (he : e ∈ calls) (hid : e.carried = some id) :
    id = a.transaction.id := by
  cases h with
  | quiet h => simp [h.carried he] at hid
  | @offer pre post result _ _ offers rest =>
    rcases List.mem_append.1 he with he | he
    · simp [offers.quiet.carried he] at hid
    · rcases List.mem_cons.1 he with rfl | he
      · unfold WireEvent.carried at hid
        split at hid
        · rename_i heq
          simp only [WireEvent.write.injEq] at heq
          rw [← heq.1] at hid
          exact (Option.some.inj hid).symm
        · simp at hid
      · simp [rest.carried he] at hid

theorem Sends.offers (h : Sends a now calls) {e : WireEvent} (he : e ∈ calls) (hid : e.offers id = true) :
    id = a.transaction.id := by
  cases h with
  | quiet h => simp [h.offers he] at hid
  | @offer pre post result _ _ offers rest =>
    rcases List.mem_append.1 he with he | he
    · simp [offers.quiet.offers he] at hid
    · rcases List.mem_cons.1 he with rfl | he
      · have hoffer : a.transaction.id = id := by simpa [WireEvent.offers, Active.offer] using hid
        exact hoffer.symm
      · simp [rest.offers he] at hid

/-- A poll writes once: whatever precedes its write, the write is the offer and the final checks passed. -/
theorem Sends.split {pre post : List WireEvent} {offer : Offer} {result : Except TransportIoError ℕ}
    (h : Sends a now calls) (heq : calls = pre ++ .write offer result :: post) :
    offer = a.offer ∧ now < a.executionDeadline ∧ a.writeOffset < a.transaction.request.length ∧ Offers a pre := by
  cases h with
  | quiet h => exact absurd rfl (h (.write offer result) (by rw [heq]; simp) offer result)
  | @offer pre' post' result' intime hopen offers rest =>
    rcases List.append_eq_append_iff.1 heq with ⟨mid, hpre, hmid⟩ | ⟨mid, hpre, hmid⟩
    · cases mid with
      | nil =>
        obtain ⟨⟨hoffer, -⟩, -⟩ : (a.offer = offer ∧ result' = result) ∧ post' = post := by simpa using hmid
        rw [List.append_nil] at hpre
        exact ⟨hoffer.symm, intime, hopen, hpre ▸ offers⟩
      | cons e mid =>
        obtain ⟨-, rfl⟩ : _ = e ∧ post' = mid ++ .write offer result :: post := by simpa using hmid
        exact absurd rfl (rest (.write offer result) (by simp) offer result)
    · cases mid with
      | nil =>
        obtain ⟨⟨hoffer, -⟩, -⟩ : (offer = a.offer ∧ result = result') ∧ post = post' := by simpa using hmid
        rw [List.append_nil] at hpre
        exact ⟨hoffer, intime, hopen, hpre ▸ offers⟩
      | cons e mid =>
        obtain ⟨rfl, -⟩ : .write offer result = e ∧ post = mid ++ .write a.offer result' :: post' := by
          simpa using hmid
        exact absurd rfl (offers.quiet (.write offer result) (by rw [hpre]; simp) offer result)

/-! ### What a write phase adds -/

/-- Questions to the authorizer only. -/
def Asks (calls : List WireEvent) : Prop := ∀ e ∈ calls, ∃ intent step answer, e = .authorize intent step answer

theorem asks_nil : Asks [] := fun _ he => by cases he

theorem Asks.quiet (h : Asks calls) : Quiet calls := by
  intro e he offer result heq
  obtain ⟨intent, step, answer, rfl⟩ := h e he
  simp at heq

theorem Asks.received (h : Asks calls) : received id calls = 0 := by
  unfold LabRuntime.received
  rw [List.sum_eq_zero]
  intro n hn
  obtain ⟨e, he, rfl⟩ := List.mem_map.1 hn
  obtain ⟨intent, step, answer, rfl⟩ := h e he
  rfl

theorem Offers.asks (h : Offers a calls) : Asks calls := by
  intro e he
  cases h with
  | resumed | read => cases he
  | validated =>
    rw [List.mem_singleton] at he
    exact ⟨_, _, _, he⟩

/-- A write phase that survives: nothing to write, or one write and the account of it. -/
theorem Wrote.cases (h : Wrote a calls a') :
    (calls = [] ∧ a' = a ∧ ¬ a.writeOffset < a.transaction.request.length) ∨
    ∃ n pre post, calls = pre ++ .write a.offer (.ok n) :: post ∧ Offers a pre ∧ Asks post ∧
      a.writeOffset < a.transaction.request.length ∧ n ≤ a.remaining.length ∧
      a'.writeOffset = a.writeOffset + n ∧ a'.response = a.response ∧
      a'.executionDeadline = a.executionDeadline ∧ a'.transaction.origin = a.transaction.origin ∧
      a'.transaction.retries = a.transaction.retries := by
  cases h with
  | skipped hclosed => exact .inl ⟨rfl, rfl, hclosed⟩
  | @accepted pre n hopen offers bound =>
    exact .inr ⟨n, pre, [], rfl, offers, asks_nil, hopen, bound, rfl, rfl, rfl, rfl, rfl⟩
  | @started pre n output dispatch hopen offers bound first positive kind =>
    refine .inr ⟨n, pre, _, rfl, offers, ?_, hopen, bound, rfl, rfl, rfl, ?_, rfl⟩
    · intro e he
      rw [List.mem_singleton] at he
      exact ⟨_, _, _, he⟩
    · simp [Transaction.origin, kind]

/-- The accepted part of a request grows at its end. -/
theorem transmit_offer {sent : List (ℕ × List UInt8)} (n : ℕ)
    (last : 0 < a.writeOffset → sent.head? =
      some (a.transaction.id, a.transaction.request.take a.writeOffset)) :
    ∃ rest, transmit sent (.write a.offer (.ok (n + 1))) =
        (a.transaction.id, a.transaction.request.take (a.writeOffset + (n + 1))) :: rest ∧
      ((a.writeOffset = 0 ∧ rest = sent) ∨
        (0 < a.writeOffset ∧ sent = (a.transaction.id, a.transaction.request.take a.writeOffset) :: rest)) := by
  unfold transmit
  dsimp only [Active.offer, Active.remaining]
  by_cases h0 : a.writeOffset = 0
  · rw [if_pos h0]
    exact ⟨sent, by simp [h0], .inl ⟨h0, rfl⟩⟩
  · rw [if_neg h0]
    have hhead := last (by omega)
    cases sent with
    | nil => simp at hhead
    | cons x rest =>
      obtain rfl : x = (a.transaction.id, a.transaction.request.take a.writeOffset) := by simpa using hhead
      refine ⟨rest, ?_, .inr ⟨by omega, rfl⟩⟩
      rw [List.take_add (j := n + 1)]

theorem transmissions_write {pre post : List WireEvent} (e : WireEvent) (hpre : Quiet pre) (hpost : Quiet post) :
    transmissions (wire ++ (pre ++ e :: post)) = transmit (transmissions wire) e := by
  rw [← List.append_assoc, transmissions_append, List.foldl_cons]
  have hbefore : transmissions (wire ++ pre) = transmissions wire := transmissions_quiet fun _ => hpre.carried
  rw [hbefore]
  have hafter : transmissions ((wire ++ pre ++ [e]) ++ post) = transmissions (wire ++ pre ++ [e]) :=
    transmissions_quiet fun _ => hpost.carried
  rw [transmissions_append, transmissions_append (wire ++ pre), hbefore] at hafter
  exact hafter

/-! ### The transaction on the wire -/

/-- What holds of an active transaction against the history of the wire. -/
structure Serving (admitted : List Transaction) (wire : List WireEvent) (a : Active) : Prop where
  clear : History.Onward (fun e after => ∀ id, e.carried = some id → Recovered after ∨
    (id ≠ a.transaction.id ∧ ∃ t ∈ admitted, t.id = id ∧ received id after = t.expectedResponse) ∨
    (id = a.transaction.id ∧ 0 < a.writeOffset ∧ received id after = a.response.length)) wire
  count : transmitted wire a.transaction.id ≤ a.transaction.retries + (if a.writeOffset = 0 then 0 else 1)
  last : 0 < a.writeOffset → (transmissions wire).head? =
    some (a.transaction.id, a.transaction.request.take a.writeOffset)
  unanswered : ¬ a.sent → a.response = []
  deadline : a.executionDeadline ≤ a.transaction.queueDeadline
  origin : a.transaction.origin ∈ admitted
  retried : a.transaction.retries ≤ 1 ∧ (a.transaction.retries ≠ 0 → a.transaction.retryable = true)

/-- Before its first byte, the wire is clear for it. -/
theorem Serving.clear_of_unsent (h : Serving admitted wire a) (h0 : a.writeOffset = 0) : Clear admitted wire := by
  refine h.clear.mono fun e after hs id hid => ?_
  obtain hr | ⟨-, ht⟩ | ⟨-, hpos, -⟩ := hs id hid
  · exact .inl hr
  · exact .inr ht
  · omega

theorem Serving.withdrawn (h : Serving admitted wire a) (h0 : a.writeOffset = 0) :
    Withdrawn a.transaction.id wire := by
  refine h.clear.mono fun e after hs hid => ?_
  obtain hr | ⟨hne, -⟩ | ⟨-, hpos, -⟩ := hs _ hid
  · exact hr
  · exact absurd rfl hne
  · omega

/-- A poll starts a transmission or extends the one of the transaction it serves. -/
theorem Serving.grows (h : Serving admitted wire a) (sends : Sends a now calls) :
    transmissions (wire ++ calls) = transmissions wire ∨
      ∃ k rest, transmissions (wire ++ calls) = (a.transaction.id, a.transaction.request.take k) :: rest ∧
        ((a.writeOffset = 0 ∧ rest = transmissions wire) ∨ (0 < a.writeOffset ∧
          transmissions wire = (a.transaction.id, a.transaction.request.take a.writeOffset) :: rest)) := by
  cases sends with
  | quiet hquiet => exact .inl (transmissions_quiet fun _ => hquiet.carried)
  | @offer pre post result intime hopen offers rest =>
    rw [transmissions_write _ offers.quiet rest]
    match result with
    | .error e => exact .inl (transmit_quiet rfl _)
    | .ok 0 => exact .inl (transmit_quiet rfl _)
    | .ok (n + 1) =>
      obtain ⟨rest, heq, hrest⟩ := transmit_offer n h.last
      exact .inr ⟨_, rest, heq, hrest⟩

theorem Serving.transmitted_other (h : Serving admitted wire a) (sends : Sends a now calls)
    (hne : id ≠ a.transaction.id) : transmitted (wire ++ calls) id = transmitted wire id := by
  unfold transmitted
  obtain heq | ⟨k, rest, heq, ⟨-, rfl⟩ | ⟨-, hwire⟩⟩ := h.grows sends
  · rw [heq]
  · rw [heq, List.map_cons, List.count_cons_of_ne (Ne.symm hne)]
  · rw [heq, hwire, List.map_cons, List.map_cons]

theorem Serving.transmitted_self (h : Serving admitted wire a) (sends : Sends a now calls) :
    transmitted (wire ++ calls) a.transaction.id ≤ a.transaction.retries + 1 := by
  have hcount := h.count
  unfold transmitted at hcount ⊢
  obtain heq | ⟨k, rest, heq, ⟨h0, rfl⟩ | ⟨hpos, hwire⟩⟩ := h.grows sends
  · rw [heq]
    split_ifs at hcount <;> omega
  · rw [if_pos h0] at hcount
    rw [heq, List.map_cons, List.count_cons_self]
    omega
  · rw [if_neg (by omega), hwire] at hcount
    rw [heq]
    simpa using hcount

/-- Every transmission is a prefix of an admitted request. -/
def Prefixes (admitted : List Transaction) (wire : List WireEvent) : Prop :=
  ∀ sent ∈ transmissions wire, ∃ t ∈ admitted, t.id = sent.1 ∧ sent.2 <+: t.request

theorem Serving.prefixes (h : Serving admitted wire a) (sends : Sends a now calls)
    (hprefixes : Prefixes admitted wire) : Prefixes admitted (wire ++ calls) := by
  intro sent hsent
  obtain heq | ⟨k, rest, heq, hrest⟩ := h.grows sends
  · exact hprefixes sent (heq ▸ hsent)
  · rw [heq, List.mem_cons] at hsent
    rcases hsent with rfl | hsent
    · exact ⟨_, h.origin, rfl, List.take_prefix _ _⟩
    · refine hprefixes sent ?_
      rcases hrest with ⟨-, rfl⟩ | ⟨-, hwire⟩
      · exact hsent
      · exact hwire ▸ List.mem_cons_of_mem _ hsent

/-- What an admission fixed about a transaction. -/
structure SameRequest (t' t : Transaction) : Prop where
  id : t'.id = t.id
  request : t'.request = t.request
  expectedResponse : t'.expectedResponse = t.expectedResponse
  queueDeadline : t'.queueDeadline = t.queueDeadline
  timeout : t'.timeout = t.timeout
  retryable : t'.retryable = t.retryable

theorem SameRequest.of_origin {t t' : Transaction} (h : t'.origin = t.origin) : SameRequest t' t := by
  simp only [Transaction.origin, Transaction.mk.injEq] at h
  exact ⟨h.1, h.2.1, h.2.2.1, h.2.2.2.1, h.2.2.2.2.1, h.2.2.2.2.2.1⟩

/-- A write phase that the transaction survives keeps its account of the wire. -/
theorem Serving.wrote (h : Serving admitted wire a) (wrote : Wrote a calls a') :
    Serving admitted (wire ++ calls) a' := by
  obtain ⟨rfl, rfl, -⟩ | ⟨n, pre, post, rfl, offers, asks, hopen, bound, hoffset, hresponse, hdeadline, horigin,
    hretries⟩ := wrote.cases
  · rwa [List.append_nil]
  obtain ⟨hid, hrequest, -, hqueue, -, hretryable⟩ := SameRequest.of_origin horigin
  have hunsent : a.response = [] := h.unanswered hopen.ne
  have hreceived : ∀ id, received id (pre ++ .write a.offer (.ok n) :: post) = 0 := by
    intro id
    have hwrite : received id [.write a.offer (.ok n)] = 0 := rfl
    rw [← List.singleton_append, received_append, received_append, offers.asks.received, hwrite, asks.received]
  constructor
  case clear =>
    refine History.onward_append.2 ⟨h.clear.mono fun e after hs id he => ?_, ?_⟩
    · -- nothing is read in a write phase, so what was settled stays settled
      obtain hr | ⟨hne, t, ht, heq, hrec⟩ | ⟨heq, hpos, hrec⟩ := hs id he
      · exact .inl (hr.append _)
      · refine .inr (.inl ⟨hid ▸ hne, t, ht, heq, ?_⟩)
        rw [received_append, hreceived, hrec, Nat.add_zero]
      · refine .inr (.inr ⟨hid ▸ heq, by omega, ?_⟩)
        rw [received_append, hreceived, hrec, hresponse, Nat.add_zero]
    · refine History.onward_append.2 ⟨History.onward_of_forall fun e he after id hcarried => ?_,
        History.onward_cons.2 ⟨fun id hcarried => ?_, History.onward_of_forall fun e he after id hcarried => ?_⟩⟩
      · simp [offers.quiet.carried he] at hcarried
      · cases n with
        | zero => simp [WireEvent.carried] at hcarried
        | succ n =>
          have heq : a.transaction.id = id := by simpa [WireEvent.carried, Active.offer] using hcarried
          refine .inr (.inr ⟨by rw [hid, heq], by omega, ?_⟩)
          rw [asks.received, hresponse, hunsent]
          rfl
      · simp [asks.quiet.carried he] at hcarried
  case count =>
    have hcount := h.count
    unfold transmitted at hcount ⊢
    rw [transmissions_write _ offers.quiet asks.quiet, hid, hretries]
    cases n with
    | zero =>
      rw [transmit_quiet rfl, show a'.writeOffset = a.writeOffset by omega]
      exact hcount
    | succ n =>
      obtain ⟨rest, heq, ⟨h0, rfl⟩ | ⟨hpos, hwire⟩⟩ := transmit_offer n h.last
      · rw [if_pos h0] at hcount
        rw [heq, if_neg (by omega), List.map_cons, List.count_cons_self]
        omega
      · rw [if_neg (by omega), hwire] at hcount
        rw [heq, if_neg (by omega)]
        simpa using hcount
  case last =>
    intro hpos
    rw [transmissions_write _ offers.quiet asks.quiet, hid, hrequest, hoffset]
    cases n with
    | zero =>
      rw [transmit_quiet rfl]
      exact h.last (by omega)
    | succ n =>
      obtain ⟨rest, heq, -⟩ := transmit_offer n h.last
      rw [heq]
      rfl
  case unanswered => exact fun _ => hresponse.trans hunsent
  case deadline =>
    rw [hdeadline, hqueue]
    exact h.deadline
  case origin =>
    rw [horigin]
    exact h.origin
  case retried =>
    rw [hretries, hretryable]
    exact h.retried

/-- A read that leaves the response short. -/
theorem Serving.partly {n : ℕ} {bytes : List UInt8} (h : Serving admitted wire a) (sent : a.sent)
    (bound : n ≤ a.missing) (size : bytes.length = a.missing + 1) :
    Serving admitted (wire ++ [.read a.transaction.id (a.missing + 1) (.ok n) bytes])
      { a with response := a.response ++ bytes.take n } := by
  have hquiet : Quiet [.read a.transaction.id (a.missing + 1) (.ok n) bytes] := quiet_read
  have htransmissions : transmissions (wire ++ [.read a.transaction.id (a.missing + 1) (.ok n) bytes]) = transmissions wire :=
    transmissions_quiet fun _ => hquiet.carried
  refine ⟨?_, ?_, ?_, fun hunsent => absurd sent hunsent, h.deadline, h.origin, h.retried⟩
  · refine History.onward_append.2 ⟨h.clear.mono fun e after hs id he => ?_,
      History.onward_of_forall fun e he after id hcarried => ?_⟩
    · obtain hr | ⟨hne, t, ht, heq, hrec⟩ | ⟨heq, hpos, hrec⟩ := hs id he
      · exact .inl (hr.append _)
      · refine .inr (.inl ⟨hne, t, ht, heq, ?_⟩)
        simp [received, WireEvent.answered, hne.symm] at hrec ⊢
        exact hrec
      · refine .inr (.inr ⟨heq, hpos, ?_⟩)
        simp [received, WireEvent.answered, heq] at hrec ⊢
        omega
    · simp [hquiet.carried he] at hcarried
  · unfold transmitted
    rw [htransmissions]
    exact h.count
  · rw [htransmissions]
    exact h.last

/-- A read that completes the response leaves the wire clear. -/
theorem Serving.completed {n : ℕ} {bytes : List UInt8} (h : Serving admitted wire a)
    (bound : n ≤ a.missing) (size : bytes.length = a.missing + 1)
    (hexact : (a.response ++ bytes.take n).length = a.transaction.expectedResponse) :
    Clear admitted (wire ++ [.read a.transaction.id (a.missing + 1) (.ok n) bytes]) := by
  have hquiet : Quiet [.read a.transaction.id (a.missing + 1) (.ok n) bytes] := quiet_read
  refine History.onward_append.2 ⟨h.clear.mono fun e after hs id he => ?_,
    History.onward_of_forall fun e he after id hcarried => ?_⟩
  · obtain hr | ⟨hne, t, ht, heq, hrec⟩ | ⟨heq, hpos, hrec⟩ := hs id he
    · exact .inl (hr.append _)
    · refine .inr ⟨t, ht, heq, ?_⟩
      simp [received, WireEvent.answered, hne.symm] at hrec ⊢
      exact hrec
    · refine .inr ⟨a.transaction.origin, h.origin, heq.symm, ?_⟩
      have hlength : a.response.length + n = a.transaction.expectedResponse := by
        rw [← hexact, List.length_append, List.length_take]
        omega
      simp [received, WireEvent.answered, heq] at hrec ⊢
      rw [hrec]
      exact hlength
  · simp [hquiet.carried he] at hcarried

/-! ### The other states of the owner -/

/-- What holds of a transaction that waits in a queue. -/
structure Waits (admitted : List Transaction) (wire : List WireEvent) (t : Transaction) : Prop where
  origin : t.origin ∈ admitted
  retried : t.retries ≤ 1 ∧ (t.retries ≠ 0 → t.retryable = true)
  withdrawn : Withdrawn t.id wire
  count : transmitted wire t.id ≤ t.retries
  unoffered : t.retries = 0 → ∀ e ∈ wire, e.offers t.id = false

/-- The execution deadline of an output runs from the poll that first offered it. -/
def StartedIn (polls : List PollRecord) (a : Active) : Prop :=
  ∀ output, a.transaction.kind = .output output → a.writeOffset = 0 →
    a.writeOffset < a.transaction.request.length → ∃ start, firstOffered polls a.transaction.id = some start ∧
      a.executionDeadline = min (start + a.transaction.timeout) a.transaction.queueDeadline

/-- The same, where the poll at `now` may be the one that offers it first. -/
def Starts (polls : List PollRecord) (now : ℕ) (a : Active) : Prop :=
  ∀ output, a.transaction.kind = .output output → a.writeOffset = 0 →
    a.writeOffset < a.transaction.request.length → a.executionDeadline =
      min ((firstOffered polls a.transaction.id).getD now + a.transaction.timeout) a.transaction.queueDeadline

/-- What the state of the owner says of the wire. -/
def StateInv (admitted : List Transaction) (polls : List PollRecord) : OwnedState → Prop
  | .idle => Clear admitted (wireOf polls)
  | .active a => Serving admitted (wireOf polls) a ∧ StartedIn polls a
  | .recovering r => r.transaction.origin ∈ admitted ∧
    (r.transaction.retries ≤ 1 ∧ (r.transaction.retries ≠ 0 → r.transaction.retryable = true)) ∧
    transmitted (wireOf polls) r.transaction.id ≤ r.transaction.retries + 1
  | .protocolRecovery _ | .offline => True

/-- A transaction with bytes on the wire is lost where the recovery deadline overflows. -/
def Abandons (timeout : ℕ) (a : Active) (now : ℕ) (calls : List WireEvent) : Prop :=
  durationMax < now + timeout ∧ ((0 < a.writeOffset ∧ a.executionDeadline ≤ now) ∨
    ((0 < a.writeOffset ∨ ∃ e ∈ calls, e.carried.isSome) ∧ ∃ e ∈ calls, e.faulty = true))

/-- Before its first byte, reading for a transaction settles and unsettles nothing. -/
theorem Serving.clear_read {length : ℕ} {result : Except TransportIoError ℕ} {bytes : List UInt8}
    (h : Serving admitted wire a) (h0 : a.writeOffset = 0) :
    Clear admitted (wire ++ [.read a.transaction.id length result bytes]) := by
  have hquiet : Quiet [.read a.transaction.id length result bytes] := quiet_read
  refine History.onward_append.2 ⟨h.clear.mono fun e after hs id he => ?_,
    History.onward_of_forall fun e he after id hid => by simp [hquiet.carried he] at hid⟩
  obtain hr | ⟨hne, t, ht, heq, hrec⟩ | ⟨-, hpos, -⟩ := hs id he
  · exact .inl (hr.append _)
  · refine .inr ⟨t, ht, heq, ?_⟩
    have hother : received id [.read a.transaction.id length result bytes] = 0 := by
      cases result <;> simp [received, WireEvent.answered, hne.symm]
    rw [received_append, hother, hrec, Nat.add_zero]
  · omega

theorem Wrote.unsent (h : Wrote a calls a') (h0 : a.writeOffset = 0) (hcarried : ∀ e ∈ calls, e.carried = none) :
    a'.writeOffset = 0 := by
  obtain ⟨-, rfl, -⟩ | ⟨n, pre, post, rfl, -, -, -, -, hoffset, -⟩ := h.cases
  · exact h0
  · cases n with
    | zero => rw [hoffset, h0]
    | succ n => exact absurd (hcarried (.write a.offer (.ok (n + 1))) (by simp)) (by simp [WireEvent.carried])

theorem Lost.origin (h : Lost a now calls a') :
    a'.transaction.origin = a.transaction.origin ∧ a'.transaction.retries = a.transaction.retries := by
  cases h with
  | expired | writeFailed | overlong | unstarted => exact ⟨rfl, rfl⟩
  | readFailed _ wrote =>
    obtain ⟨-, rfl, -⟩ | ⟨-, -, -, -, -, -, -, -, -, -, -, horigin, hretries⟩ := wrote.cases
    · exact ⟨rfl, rfl⟩
    · exact ⟨horigin, hretries⟩

/-- A transaction that is lost without a byte on the wire leaves it clear. -/
theorem Serving.lost (h : Serving admitted wire a) (lost : Lost a now calls a')
    (hunsent : a.executionDeadline ≤ now ∨ (∃ e ∈ calls, e.faulty = true) →
      a.writeOffset = 0 ∧ ∀ e ∈ calls, e.carried = none) : Clear admitted (wire ++ calls) := by
  cases lost with
  | expired late =>
    rw [List.append_nil]
    exact h.clear_of_unsent (hunsent (.inl late)).1
  | @writeFailed pre e intime hopen offers =>
    obtain ⟨h0, hcarried⟩ := hunsent (.inr ⟨.write a.offer (.error e), by simp, rfl⟩)
    refine (h.clear_of_unsent h0).append hcarried fun id => ?_
    rw [received_append, offers.asks.received]
    rfl
  | @overlong pre n intime hopen offers bound =>
    obtain ⟨h0, hcarried⟩ := hunsent
      (.inr ⟨.write a.offer (.ok n), by simp, decide_eq_true bound⟩)
    obtain ⟨m, rfl⟩ : ∃ m, n = m + 1 := ⟨n - 1, by omega⟩
    exact absurd (hcarried (.write a.offer (.ok (m + 1))) (by simp)) (by simp [WireEvent.carried])
  | @unstarted pre n output answer intime hopen offers bound first positive kind rejected =>
    obtain ⟨h0, hcarried⟩ := hunsent (.inr ⟨.authorize output.intent .started answer, by simp, by
      unfold WireEvent.faulty
      split <;> simp_all⟩)
    obtain ⟨m, rfl⟩ : ∃ m, n = m + 1 := ⟨n - 1, by omega⟩
    exact absurd (hcarried (.write a.offer (.ok (m + 1))) (by simp)) (by simp [WireEvent.carried])
  | @readFailed pre a' e bytes intime wrote sent =>
    obtain ⟨h0, hcarried⟩ := hunsent
      (.inr ⟨.read a'.transaction.id (a'.missing + 1) (.error e) bytes, by simp, rfl⟩)
    rw [← List.append_assoc]
    exact (h.wrote wrote).clear_read
      (wrote.unsent h0 fun e he => hcarried e (List.mem_append_left _ he))

theorem firstOffered_snoc (p : PollRecord) : firstOffered (polls ++ [p]) id =
    (firstOffered polls id).or (if p.offers id then some p.time else none) := by
  unfold firstOffered
  rw [List.find?_append, List.find?_singleton]
  cases polls.find? (·.offers id) with
  | some q => rfl
  | none => cases p.offers id <;> rfl

theorem StartedIn.starts (h : StartedIn polls a) (now : ℕ) : Starts polls now a := by
  intro output hkind h0 hopen
  obtain ⟨start, hfirst, hdeadline⟩ := h output hkind h0 hopen
  rw [hfirst]
  exact hdeadline

/-- A write phase that goes on has offered the request. -/
theorem Starts.wrote {p : PollRecord} (h : Starts polls now a) (wrote : Wrote a calls a')
    (hcalls : ∀ e ∈ calls, e ∈ p.calls) (htime : p.time = now) : StartedIn (polls ++ [p]) a' := by
  intro output hkind h0 hopen
  obtain ⟨-, rfl, hclosed⟩ | ⟨n, pre, post, rfl, -, -, hopen', -, hoffset, -, hdeadline, horigin, -⟩ := wrote.cases
  · exact absurd hopen hclosed
  · obtain ⟨hid, -, -, hqueue, htimeout, -⟩ := SameRequest.of_origin horigin
    have hoffers : p.offers a'.transaction.id = true := by
      rw [PollRecord.offers, List.any_eq_true]
      exact ⟨_, hcalls (.write a.offer (.ok n)) (by simp), by simp [WireEvent.offers, Active.offer, hid]⟩
    have hkind' : ∃ output', a.transaction.kind = .output output' := by
      have := congrArg (fun u : Transaction => u.kind) horigin
      cases hk : a.transaction.kind with
      | read => simp [Transaction.origin, hk, hkind] at this
      | output output' => exact ⟨output', rfl⟩
    obtain ⟨output', hkind'⟩ := hkind'
    have hstarts := h output' hkind' (by omega) hopen'
    rw [firstOffered_snoc, hoffers, if_pos rfl, hdeadline, hid, htimeout, hqueue, htime]
    cases hfirst : firstOffered polls a.transaction.id with
    | none => exact ⟨now, rfl, by simpa [hfirst] using hstarts⟩
    | some start => exact ⟨start, rfl, by simpa [hfirst] using hstarts⟩

/-- The state a served transaction leaves, unless it is abandoned. -/
theorem Served.state {turn : Turn} {p : PollRecord} (h : Served s a now p.calls turn)
    (serving : Serving admitted (wireOf polls) a) (starts : Starts polls now a)
    (ok : ¬ Abandons s.recoveryTimeout a now p.calls) (htime : p.time = now) :
    StateInv admitted (polls ++ [p]) (turn.1.toOption.getD .idle) := by
  have hsends := h.sends
  have hself := serving.transmitted_self hsends
  generalize hcalls : p.calls = calls at h hsends hself ok
  have hunsent : durationMax < now + s.recoveryTimeout →
      a.executionDeadline ≤ now ∨ (∃ e ∈ calls, e.faulty = true) →
      a.writeOffset = 0 ∧ ∀ e ∈ calls, e.carried = none := by
    intro hover hfault
    by_contra hsent
    have hbytes : 0 < a.writeOffset ∨ ∃ e ∈ calls, e.carried.isSome := by
      by_contra hnone
      refine hsent ⟨by omega, fun e he => ?_⟩
      rw [← Option.not_isSome_iff_eq_none]
      exact fun hcarried => hnone (.inr ⟨e, he, hcarried⟩)
    refine ok ⟨hover, ?_⟩
    rcases hfault with hlate | hfault
    · -- an expired transaction is offered nothing more
      refine .inl ⟨?_, hlate⟩
      rcases hbytes with hpos | ⟨e, he, hcarried⟩
      · exact hpos
      · cases hsends with
        | quiet hquiet => simp [hquiet.carried he] at hcarried
        | offer intime => omega
    · exact .inr ⟨hbytes, hfault⟩
  cases h with
  | @lost calls a' hlost =>
    obtain ⟨horigin, hretries⟩ := hlost.origin
    obtain ⟨hid, -, -, -, -, hretryable⟩ := SameRequest.of_origin horigin
    rw [enterRecovery_eq]
    cases hd : durationAdd now s.recoveryTimeout with
    | none =>
      show Clear admitted (wireOf (polls ++ [p]))
      rw [wireOf_snoc, hcalls]
      exact serving.lost hlost (hunsent (durationAdd_eq_none.1 hd))
    | some deadline =>
      refine ⟨?_, ?_, ?_⟩
      · exact horigin ▸ serving.origin
      · rw [hretries, hretryable]
        exact serving.retried
      · rw [wireOf_snoc, hcalls, hretries, hid]
        exact hself
  | @refused output e intime hopen first kind =>
    show Clear admitted (wireOf (polls ++ [p]))
    rw [wireOf_snoc, hcalls]
    have hquiet : Quiet [.authorize output.intent .validate (.error e)] := quiet_authorize
    exact (serving.clear_of_unsent first).append (fun _ => hquiet.carried) fun _ => rfl
  | waiting intime wrote unsent =>
    refine ⟨?_, starts.wrote wrote (fun e he => hcalls ▸ he) htime⟩
    rw [wireOf_snoc, hcalls]
    exact serving.wrote wrote
  | @overread calls a' n bytes intime wrote sent bound =>
    rw [enterProtocolRecovery_eq]
    cases hd : durationAdd now s.recoveryTimeout with
    | none =>
      obtain ⟨h0, hcarried⟩ := hunsent (durationAdd_eq_none.1 hd)
        (.inr ⟨.read a'.transaction.id (a'.missing + 1) (.ok n) bytes, by simp, decide_eq_true bound⟩)
      show Clear admitted (wireOf (polls ++ [p]))
      rw [wireOf_snoc, hcalls, ← List.append_assoc]
      exact (serving.wrote wrote).clear_read
        (wrote.unsent h0 fun e he => hcarried e (List.mem_append_left _ he))
    | some deadline => trivial
  | partly intime wrote sent bound size short =>
    refine ⟨?_, fun _ _ _ hopen => absurd hopen ?_⟩
    · rw [wireOf_snoc, hcalls, ← List.append_assoc]
      exact (serving.wrote wrote).partly sent bound size
    · exact (not_lt.2 sent.ge)
  | completed intime wrote sent bound size hexact =>
    show Clear admitted (wireOf (polls ++ [p]))
    rw [wireOf_snoc, hcalls, ← List.append_assoc]
    exact (serving.wrote wrote).completed bound size hexact

theorem Served.waiting_subset {turn : Turn} (h : Served s a now calls turn) {t : Transaction}
    (ht : t ∈ turn.2.waiting) : t ∈ s.waiting := by
  cases h with
  | lost =>
    rw [enterRecovery_eq] at ht
    have hsafe : t ∈ s.safeQueue.toList := by
      split at ht <;> simpa [ResourceExecutor.waiting, lose] using ht
    exact List.mem_append_left _ hsafe
  | overread =>
    rw [enterProtocolRecovery_eq] at ht
    have hsafe : t ∈ s.safeQueue.toList := by
      split at ht <;> simpa [ResourceExecutor.waiting, reject, finish] using ht
    exact List.mem_append_left _ hsafe
  | refused | waiting | partly | completed => exact ht

end ResourceExecutor
end LabRuntime
