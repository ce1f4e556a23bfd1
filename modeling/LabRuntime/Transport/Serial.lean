import LabRuntime.Transport.Serving

/-! The serial wire of a run: what every poll leaves behind in the history, and the run that follows. -/

namespace LabRuntime
namespace ResourceExecutor

variable {ω : Type} {B : Boundary ω} {s s' : ResourceExecutor} {a a' : Active} {now : ℕ}
  {calls wire more : List WireEvent} {admitted : List Transaction} {polls : List PollRecord} {id : ℕ}

/-! ### The history of a run -/

/-- What holds when the first byte of a request is offered, after the polls `earlier` and after the
calls `pre` of the same poll. -/
structure FirstOffer (admitted : List Transaction) (earlier : List PollRecord) (p : PollRecord)
    (pre : List WireEvent) (t : Transaction) : Prop where
  exclusive : Clear admitted (wireOf earlier ++ pre)
  validated : ∀ output, t.kind = .output output →
    (∃ answer, .authorize output.intent .validate (.ok answer) ∈ pre) ∧
      ∃ start, firstOffered (earlier ++ [p]) t.id = some start ∧ p.time < start + t.timeout ∧
        p.time < t.queueDeadline
  again : 0 < transmitted (wireOf earlier ++ pre) t.id →
    t.retryable = true ∧ p.time < t.queueDeadline ∧ Withdrawn t.id (wireOf earlier ++ pre)

def FirstOffers (admitted : List Transaction) (earlier : List PollRecord) (p : PollRecord) : Prop :=
  ∀ pre offer result post, p.calls = pre ++ .write offer result :: post → offer.offset = 0 →
    ∃ t ∈ admitted, t.id = offer.id ∧ t.request = offer.bytes ∧ FirstOffer admitted earlier p pre t

/-- The polls so far served one transaction at a time. -/
structure Orderly (admitted : List Transaction) (polls : List PollRecord) : Prop where
  prefixes : Prefixes admitted (wireOf polls)
  once : ∀ t ∈ admitted, transmitted (wireOf polls) t.id ≤ if t.retryable then 2 else 1
  first : ∀ earlier p later, polls = earlier ++ p :: later → FirstOffers admitted earlier p

/-- Requests on the wire were admitted. -/
def Known (admitted : List Transaction) (wire : List WireEvent) : Prop :=
  ∀ e ∈ wire, ∀ id, e.offers id = true → ∃ t ∈ admitted, t.id = id

structure Inv (admitted : List Transaction) (polls : List PollRecord) (waiting : List Transaction)
    (state : OwnedState) : Prop where
  orderly : Orderly admitted polls
  known : Known admitted (wireOf polls)
  waits : ∀ t ∈ waiting, Waits admitted (wireOf polls) t
  state : StateInv admitted polls state

theorem snoc_cases {α : Type} {l pre post : List α} {x y : α} (h : l ++ [x] = pre ++ y :: post) :
    (post = [] ∧ l = pre ∧ x = y) ∨ ∃ post', l = pre ++ y :: post' := by
  rcases List.eq_nil_or_concat post with rfl | ⟨post', z, rfl⟩
  · obtain ⟨rfl, hx⟩ := List.append_inj' h rfl
    exact .inl ⟨rfl, rfl, by simpa using hx⟩
  · refine .inr ⟨post', ?_⟩
    rw [show pre ++ y :: post'.concat z = (pre ++ y :: post') ++ [z] by simp] at h
    exact (List.append_inj' h rfl).1

theorem Orderly.snoc {p : PollRecord} (h : Orderly admitted polls)
    (prefixes : Prefixes admitted (wireOf (polls ++ [p])))
    (once : ∀ t ∈ admitted, transmitted (wireOf (polls ++ [p])) t.id ≤ if t.retryable then 2 else 1)
    (first : FirstOffers admitted polls p) : Orderly admitted (polls ++ [p]) := by
  refine ⟨prefixes, once, fun earlier q later heq => ?_⟩
  obtain ⟨-, rfl, rfl⟩ | ⟨later', rfl⟩ := snoc_cases heq
  · exact first
  · exact h.first earlier q later' rfl

theorem Orderly.quiet {p : PollRecord} (h : Orderly admitted polls) (hquiet : Quiet p.calls) :
    Orderly admitted (polls ++ [p]) := by
  have htransmissions : transmissions (wireOf (polls ++ [p])) = transmissions (wireOf polls) := by
    rw [wireOf_snoc]
    exact transmissions_quiet fun _ => hquiet.carried
  refine h.snoc ?_ ?_ ?_
  · unfold Prefixes
    rw [htransmissions]
    exact h.prefixes
  · unfold transmitted
    rw [htransmissions]
    exact h.once
  · intro pre offer result post heq
    exact absurd rfl (hquiet (.write offer result) (by rw [heq]; simp) offer result)

/-- The first offer of the transaction a poll serves. -/
theorem Serving.firstOffers {p : PollRecord} (h : Serving admitted (wireOf polls) a) (starts : Starts polls p.time a)
    (sends : Sends a p.time p.calls) : FirstOffers admitted polls p := by
  intro pre offer result post heq hoffset
  obtain ⟨rfl, intime, hopen, offers⟩ := sends.split heq
  have h0 : a.writeOffset = 0 := hoffset
  have hbefore : transmissions (wireOf polls ++ pre) = transmissions (wireOf polls) :=
    transmissions_quiet fun _ => offers.quiet.carried
  refine ⟨a.transaction.origin, h.origin, rfl, ?_, ?_, ?_, ?_⟩
  · simp [Active.offer, Active.remaining, h0, Transaction.origin]
  · exact (h.clear_of_unsent h0).append (fun _ => offers.quiet.carried) fun _ => offers.asks.received
  · intro output hkind
    obtain ⟨output', hkind'⟩ : ∃ output', a.transaction.kind = .output output' := by
      cases hk : a.transaction.kind with
      | read => simp [Transaction.origin, hk] at hkind
      | output output' => exact ⟨output', rfl⟩
    obtain rfl : { output' with dispatch := none } = output := by
      simpa [Transaction.origin, hkind'] using hkind
    have hdeadline := starts output' hkind' h0 hopen
    have hoffers : p.offers a.transaction.id = true := by
      rw [PollRecord.offers, List.any_eq_true]
      exact ⟨.write a.offer result, by rw [heq]; simp, by simp [WireEvent.offers, Active.offer]⟩
    refine ⟨?_, (firstOffered polls a.transaction.id).getD p.time, ?_, ?_, ?_⟩
    · cases offers with
      | resumed hne => exact absurd h0 hne
      | read hread => simp [hread] at hkind'
      | @validated output answer _ hkind'' =>
        obtain rfl : output = output' := by simpa [hkind''] using hkind'
        exact ⟨answer, by simp⟩
    · show firstOffered (polls ++ [p]) a.transaction.id = _
      rw [firstOffered_snoc, hoffers, if_pos rfl]
      cases firstOffered polls a.transaction.id <;> rfl
    · show p.time < _ + a.transaction.timeout
      omega
    · show p.time < a.transaction.queueDeadline
      omega
  · intro hagain
    have hcount := h.count
    unfold transmitted at hagain hcount
    rw [hbefore] at hagain
    rw [if_pos h0] at hcount
    refine ⟨h.retried.2 ?_, ?_, ?_⟩
    · have : (a.transaction.origin).id = a.transaction.id := rfl
      rw [this] at hagain
      omega
    · have := h.deadline
      show p.time < a.transaction.queueDeadline
      omega
    · exact (h.withdrawn h0).append fun e he hid => by simp [offers.quiet.carried he] at hid

theorem Serving.orderly {p : PollRecord} (h : Serving admitted (wireOf polls) a) (starts : Starts polls p.time a)
    (sends : Sends a p.time p.calls) (hnodup : (admitted.map Transaction.id).Nodup)
    (orderly : Orderly admitted polls) : Orderly admitted (polls ++ [p]) := by
  refine orderly.snoc ?_ ?_ (h.firstOffers starts sends)
  · rw [wireOf_snoc]
    exact h.prefixes sends orderly.prefixes
  · intro t ht
    rw [wireOf_snoc]
    by_cases hid : t.id = a.transaction.id
    · have heq : t = a.transaction.origin := List.inj_on_of_nodup_map hnodup ht h.origin hid
      have hself := h.transmitted_self sends
      obtain ⟨hle, hretryable⟩ := h.retried
      have hsame : t.retryable = a.transaction.retryable := by rw [heq]; rfl
      rw [hid, hsame]
      split_ifs with hr
      · omega
      · by_cases h0 : a.transaction.retries = 0
        · omega
        · exact absurd (hretryable h0) hr
    · rw [h.transmitted_other sends hid]
      exact orderly.once t ht

/-! ### One step -/

theorem Waits.append {t : Transaction} (h : Waits admitted wire t) (hoffers : ∀ e ∈ calls, e.offers t.id = false)
    (hcarried : ∀ e ∈ calls, e.carried ≠ some t.id)
    (hcount : transmitted (wire ++ calls) t.id = transmitted wire t.id) : Waits admitted (wire ++ calls) t := by
  refine ⟨h.origin, h.retried, h.withdrawn.append hcarried, hcount ▸ h.count, fun h0 e he => ?_⟩
  rcases List.mem_append.1 he with he | he
  · exact h.unoffered h0 e he
  · exact hoffers e he

theorem Waits.quiet {t : Transaction} (h : Waits admitted wire t) (hquiet : Quiet calls) :
    Waits admitted (wire ++ calls) t := by
  refine h.append (fun e he => hquiet.offers he _) (fun e he hid => by simp [hquiet.carried he] at hid) ?_
  unfold transmitted
  rw [transmissions_quiet fun _ => hquiet.carried]

/-- Serving one transaction leaves the others waiting as they were. -/
theorem Serving.waits {t : Transaction} (h : Serving admitted wire a) (sends : Sends a now calls)
    (ht : Waits admitted wire t) (hne : t.id ≠ a.transaction.id) : Waits admitted (wire ++ calls) t := by
  refine ht.append (fun e he => ?_) (fun e he hid => hne (sends.carried he hid)) (h.transmitted_other sends hne)
  by_contra hoffers
  exact hne (sends.offers he (by simpa using hoffers))

/-- A transaction that leaves its queue for a clear wire is served from its first byte. -/
theorem Waits.serving {t : Transaction} (h : Waits admitted wire t) (hclear : Clear admitted wire) (deadline : ℕ)
    (hdeadline : deadline ≤ t.queueDeadline) :
    Serving admitted wire { transaction := t, writeOffset := 0, response := [], executionDeadline := deadline } where
  clear := by
    intro pre e after heq id hid
    by_cases hown : id = t.id
    · exact .inl (h.withdrawn pre e after heq (hown ▸ hid))
    · obtain hr | ht := hclear pre e after heq id hid
      · exact .inl hr
      · exact .inr (.inl ⟨hown, ht⟩)
  count := h.count
  last := fun hpos => absurd hpos (lt_irrefl 0)
  unanswered := fun _ => rfl
  deadline := hdeadline
  origin := h.origin
  retried := h.retried

theorem Known.append (h : Known admitted wire)
    (hcalls : ∀ e ∈ calls, ∀ id, e.offers id = true → ∃ t ∈ admitted, t.id = id) : Known admitted (wire ++ calls) := by
  intro e he id hid
  rcases List.mem_append.1 he with he | he
  · exact h e he id hid
  · exact hcalls e he id hid

theorem Known.quiet (h : Known admitted wire) (hquiet : Quiet calls) : Known admitted (wire ++ calls) :=
  h.append fun e he id hid => by simp [hquiet.offers he] at hid

variable {waiting : List Transaction} {state : OwnedState} {p : PollRecord}

/-- A poll without a write, whatever it does to the owner. -/
theorem Inv.quiet {waiting' : List Transaction} {state' : OwnedState} (h : Inv admitted polls waiting state)
    (hquiet : Quiet p.calls) (hwaiting : ∀ t ∈ waiting', t ∈ waiting)
    (hstate : StateInv admitted (polls ++ [p]) state') : Inv admitted (polls ++ [p]) waiting' state' := by
  refine ⟨h.orderly.quiet hquiet, ?_, fun t ht => ?_, hstate⟩
  · rw [wireOf_snoc]
    exact h.known.quiet hquiet
  · rw [wireOf_snoc]
    exact (h.waits t (hwaiting t ht)).quiet hquiet

/-- A poll that serves a transaction no other owned one shares its id with. -/
theorem Inv.served {turn : Turn} (h : Inv admitted polls waiting state) (hnodup : (admitted.map Transaction.id).Nodup)
    (serving : Serving admitted (wireOf polls) a) (starts : Starts polls p.time a)
    (served : Served s a p.time p.calls turn) (ok : ¬ Abandons s.recoveryTimeout a p.time p.calls)
    (hwaiting : ∀ t ∈ s.waiting, t ∈ waiting ∧ t.id ≠ a.transaction.id) :
    Inv admitted (polls ++ [p]) turn.2.waiting (turn.1.toOption.getD .idle) := by
  refine ⟨serving.orderly starts served.sends hnodup h.orderly, ?_, fun t ht => ?_,
    served.state serving starts ok rfl⟩
  · rw [wireOf_snoc]
    refine h.known.append fun e he id hid => ⟨_, serving.origin, ?_⟩
    exact (served.sends.offers he hid).symm
  · rw [wireOf_snoc]
    obtain ⟨hmem, hne⟩ := hwaiting t (served.waiting_subset ht)
    exact serving.waits served.sends (h.waits t hmem) hne

/-- The poll loses a transaction with bytes on the wire, and no recovery deadline fits in a `Duration`. -/
def lossy (timeout : ℕ) (state : OwnedState) (p : PollRecord) : Bool :=
  decide (durationMax < p.time + timeout) &&
    (state.partlySent || p.calls.any (fun e => e.carried.isSome)) &&
    (state.expired p.time || p.calls.any WireEvent.faulty)

theorem not_abandons_active (ok : lossy s.recoveryTimeout (.active a) p = false) :
    ¬ Abandons s.recoveryTimeout a p.time p.calls := by
  rintro ⟨hover, h⟩
  simp only [lossy, hover, decide_true, Bool.true_and, Bool.and_eq_false_iff, Bool.or_eq_false_iff,
    OwnedState.partlySent, OwnedState.expired, decide_eq_false_iff_not, List.any_eq_false] at ok
  rcases h with ⟨hpos, hlate⟩ | ⟨hsent, e, he, hfaulty⟩
  · rcases ok with ok | ok
    · exact ok.1 hpos
    · exact ok.1 hlate
  · rcases ok with ok | ok
    · rcases hsent with hpos | ⟨e', he', hcarried⟩
      · exact ok.1 hpos
      · exact ok.2 e' he' hcarried
    · exact ok.2 e he hfaulty

theorem not_abandons_begun {t : Transaction} {deadline : ℕ} (ok : lossy s.recoveryTimeout .idle p = false) :
    ¬ Abandons s.recoveryTimeout
      { transaction := t, writeOffset := 0, response := [], executionDeadline := deadline } p.time p.calls := by
  rintro ⟨hover, h⟩
  simp only [lossy, hover, decide_true, Bool.true_and, Bool.and_eq_false_iff, Bool.or_eq_false_iff,
    OwnedState.partlySent, OwnedState.expired, List.any_eq_false, true_and] at ok
  rcases h with ⟨hpos, -⟩ | ⟨hpos | ⟨e', he', hcarried⟩, e, he, hfaulty⟩
  · exact absurd hpos (lt_irrefl 0)
  · exact absurd hpos (lt_irrefl 0)
  · rcases ok with ok | ok
    · exact ok e' he' hcarried
    · exact ok e he hfaulty

theorem firstOffered_none (h : ∀ e ∈ wireOf polls, e.offers id = false) : firstOffered polls id = none := by
  unfold firstOffered
  rw [Option.map_eq_none_iff, List.find?_eq_none]
  intro p hp hoffers
  rw [PollRecord.offers, List.any_eq_true] at hoffers
  obtain ⟨e, he, hid⟩ := hoffers
  exact Bool.false_ne_true ((h e (List.mem_flatMap.2 ⟨p, hp, he⟩)).symm.trans hid)

/-- A transaction about to start: its execution deadline runs from now. -/
theorem Waits.starts {t : Transaction} {now deadline : ℕ} (h : Waits admitted (wireOf polls) t)
    (outputs : ∀ u ∈ admitted, u.kind.intent.isSome → u.retryable = false)
    (hdeadline : durationAdd now t.timeout = some deadline) :
    Starts polls now { transaction := t, writeOffset := 0, response := [],
                       executionDeadline := min deadline t.queueDeadline } := by
  intro output hkind _ _
  have hkind : t.kind = .output output := hkind
  have honce : t.retryable = false := outputs t.origin h.origin (by simp [Transaction.origin, hkind, TransactionKind.intent])
  have hretries : t.retries = 0 := by
    by_contra hne
    simp [h.retried.2 hne] at honce
  obtain ⟨rfl, -⟩ := durationAdd_eq_some.1 hdeadline
  show min (now + t.timeout) t.queueDeadline = _
  rw [firstOffered_none (h.unoffered hretries)]
  rfl

theorem stateInv_quiet (hquiet : Quiet p.calls) {r : Recovery} (h : StateInv admitted polls (.recovering r)) :
    StateInv admitted (polls ++ [p]) (.recovering r) := by
  obtain ⟨horigin, hretried, hcount⟩ := h
  refine ⟨horigin, hretried, ?_⟩
  unfold transmitted at hcount ⊢
  rw [wireOf_snoc, transmissions_quiet fun _ => hquiet.carried]
  exact hcount

theorem clear_snoc_quiet (h : Clear admitted (wireOf polls)) (hcalls : p.calls = []) :
    Clear admitted (wireOf (polls ++ [p])) := by
  rw [wireOf_snoc, hcalls, List.append_nil]
  exact h

theorem clear_snoc_recovered (hcalls : p.calls = [.recover (.ok .complete)]) :
    Clear admitted (wireOf (polls ++ [p])) := by
  rw [wireOf_snoc, hcalls]
  exact clear_recovered

/-- One turn of the owner keeps the wire in order. -/
theorem Progress.inv {turn : Turn} {c : List WireEvent} {now : ℕ} (h : Progress s now state c turn)
    (hcalls : p.calls = c) (htime : p.time = now)
    (inv : Inv admitted polls s.waiting state) (hnodup : (admitted.map Transaction.id).Nodup)
    (single : ∀ id, s.tally id + OwnedState.tally state id ≤ 1)
    (outputs : ∀ t ∈ admitted, t.kind.intent.isSome → t.retryable = false)
    (ok : lossy s.recoveryTimeout state p = false) :
    Inv admitted (polls ++ [p]) turn.2.waiting (turn.1.toOption.getD .idle) := by
  have hsame : ∀ t ∈ s.waiting, t ∈ s.waiting := fun _ ht => ht
  have hnone : c = [] → Quiet p.calls := fun hc => by rw [hcalls, hc]; exact quiet_nil
  have hrecover : ∀ result, c = [.recover result] → Quiet p.calls := fun result hc => by
    rw [hcalls, hc]
    exact quiet_recover
  cases h with
  | rest => exact inv.quiet (hnone rfl) hsame (clear_snoc_quiet inv.state hcalls)
  | queueExpired next =>
    exact inv.quiet (hnone rfl) (takeNext_mem next).2 (clear_snoc_quiet inv.state hcalls)
  | unschedulable next =>
    exact inv.quiet (hnone rfl) (takeNext_mem next).2 (clear_snoc_quiet inv.state hcalls)
  | @begun t s' deadline _ _ next intime schedule served =>
    obtain ⟨hmem, hrest⟩ := takeNext_mem next
    have hwaits := inv.waits t hmem
    have htimeout : s'.recoveryTimeout = s.recoveryTimeout := (takeNext_frame next).1.timeout
    subst hcalls
    subst htime
    refine inv.served hnodup (hwaits.serving inv.state _ (min_le_right _ _)) (hwaits.starts outputs schedule) served
      (not_abandons_begun (htimeout ▸ ok)) fun u hu => ⟨hrest u hu, ?_⟩
    refine ne_of_tally (s := s') ?_ hu
    have htally := tally_takeNext next t.id
    have := single t.id
    rw [List.count_singleton_self] at htally
    show s'.tally t.id = 0
    omega
  | @active a _ _ served =>
    subst hcalls
    subst htime
    obtain ⟨serving, started⟩ := inv.state
    refine inv.served hnodup serving (started.starts _) served (not_abandons_active ok) fun u hu => ⟨hu, ?_⟩
    refine ne_of_tally ?_ hu
    have hown : OwnedState.tally (.active a) a.transaction.id = 1 := by
      simp [OwnedState.tally, OwnedState.transactions]
    have := single a.transaction.id
    omega
  | timedOut => exact inv.quiet (hnone rfl) hsame trivial
  | recovering =>
    exact inv.quiet (hrecover _ rfl) hsame (stateInv_quiet (hrecover _ rfl) inv.state)
  | exhausted => exact inv.quiet (hrecover _ rfl) hsame (clear_snoc_recovered hcalls)
  | @retried r intime retryable first queue =>
    have hidle : StateInv admitted (polls ++ [p]) .idle := clear_snoc_recovered hcalls
    have hq := inv.quiet (hrecover _ rfl) hsame hidle
    obtain ⟨horigin, hretried, hcount⟩ := stateInv_quiet (hrecover _ rfl) inv.state
    refine ⟨hq.orderly, hq.known, fun t ht => ?_, hq.state⟩
    have ht : t ∈ s.safeQueue.toList ++ ({ r.transaction with retries := 1 } :: s.queue) := ht
    rw [List.mem_append, List.mem_cons] at ht
    obtain ht | rfl | ht := ht
    · exact hq.waits t (List.mem_append_left _ ht)
    · refine ⟨horigin, ⟨le_refl 1, fun _ => retryable⟩, ?_, ?_, fun h0 => absurd h0 one_ne_zero⟩
      · rw [wireOf_snoc, hcalls]
        exact withdrawn_recovered
      · rw [first] at hcount
        exact hcount
    · exact hq.waits t (List.mem_append_right _ ht)
  | recovered => exact inv.quiet (hrecover _ rfl) hsame (clear_snoc_recovered hcalls)
  | unrecovered => exact inv.quiet (hrecover _ rfl) hsame trivial
  | boundaryLate => exact inv.quiet (hnone rfl) hsame trivial
  | boundaryPending => exact inv.quiet (hrecover _ rfl) hsame trivial
  | boundaryExhausted => exact inv.quiet (hrecover _ rfl) hsame (clear_snoc_recovered hcalls)
  | boundaryRecovered => exact inv.quiet (hrecover _ rfl) hsame (clear_snoc_recovered hcalls)
  | boundaryFailed => exact inv.quiet (hrecover _ rfl) hsame trivial
  | offline => exact inv.quiet (hnone rfl) hsame trivial

theorem stateInv_nil (h : StateInv admitted polls state) (hcalls : p.calls = []) :
    StateInv admitted (polls ++ [p]) state := by
  have hquiet : Quiet p.calls := by rw [hcalls]; exact quiet_nil
  cases state with
  | idle => exact clear_snoc_quiet h hcalls
  | active a =>
    obtain ⟨serving, started⟩ := h
    refine ⟨?_, fun output hkind h0 hopen => ?_⟩
    · rw [wireOf_snoc, hcalls, List.append_nil]
      exact serving
    · have hoffers : p.offers a.transaction.id = false := by rw [PollRecord.offers, hcalls]; rfl
      rw [firstOffered_snoc, hoffers, if_neg Bool.false_ne_true, Option.or_none]
      exact started output hkind h0 hopen
  | recovering r => exact stateInv_quiet hquiet h
  | protocolRecovery | offline => trivial

theorem Polled.inv {result : Except TransportError (Option TransportEvent)} (h : Polled s now calls result s')
    (hcalls : p.calls = calls) (htime : p.time = now) (inv : Inv admitted polls s.waiting s.state)
    (hnodup : (admitted.map Transaction.id).Nodup) (single : ∀ id, s.held id ≤ 1)
    (outputs : ∀ t ∈ admitted, t.kind.intent.isSome → t.retryable = false)
    (ok : s.lastPoll ≤ now → lossy s.recoveryTimeout s.state p = false) :
    Inv admitted (polls ++ [p]) s'.waiting s'.state := by
  have hnone : calls = [] → Quiet p.calls := fun hc => by rw [hcalls, hc]; exact quiet_nil
  cases h with
  | backwards => exact inv.quiet (hnone rfl) (fun _ ht => ht) (stateInv_nil inv.state hcalls)
  | popped => exact inv.quiet (hnone rfl) (fun _ ht => ht) (stateInv_nil inv.state hcalls)
  | failed later _ progress =>
    have hinv := progress.inv hcalls htime inv hnodup single outputs (ok later)
    have hstate : s'.state = .idle := progress.frame.2
    rw [hstate]
    exact hinv
  | progressed later _ progress => exact progress.inv hcalls htime inv hnodup single outputs (ok later)

/-- A queue or an owner state that loses transactions keeps the account of the others. -/
theorem Inv.shrink {waiting' : List Transaction} {state' : OwnedState} (h : Inv admitted polls waiting state)
    (hwaiting : ∀ t ∈ waiting', t ∈ waiting) (hstate : StateInv admitted polls state') :
    Inv admitted polls waiting' state' :=
  ⟨h.orderly, h.known, fun t ht => h.waits t (hwaiting t ht), hstate⟩

theorem transmitted_unknown {t : Transaction} (h : Prefixes admitted wire) (hfresh : ∀ u ∈ admitted, u.id ≠ t.id) :
    transmitted wire t.id = 0 := by
  unfold transmitted
  rw [List.count_eq_zero]
  intro hmem
  obtain ⟨sent, hsent, hid⟩ := List.mem_map.1 hmem
  obtain ⟨u, hu, huid, -⟩ := h sent hsent
  exact hfresh u hu (huid.trans hid)

theorem stateInv_admit {t : Transaction} (h : StateInv admitted polls state) :
    StateInv (admitted ++ [t]) polls state := by
  cases state with
  | idle => exact Clear.admission h [t]
  | active a =>
    obtain ⟨serving, started⟩ := h
    refine ⟨⟨serving.clear.mono fun e after hs id hid => ?_, serving.count, serving.last, serving.unanswered,
      serving.deadline, List.mem_append_left _ serving.origin, serving.retried⟩, started⟩
    obtain hr | ⟨hne, u, hu, hrest⟩ | hown := hs id hid
    · exact .inl hr
    · exact .inr (.inl ⟨hne, u, List.mem_append_left _ hu, hrest⟩)
    · exact .inr (.inr hown)
  | recovering r =>
    obtain ⟨horigin, hrest⟩ := h
    exact ⟨List.mem_append_left _ horigin, hrest⟩
  | protocolRecovery | offline => trivial

theorem Orderly.admission {t : Transaction} (h : Orderly admitted polls) (hfresh : ∀ u ∈ admitted, u.id ≠ t.id) :
    Orderly (admitted ++ [t]) polls := by
  refine ⟨fun sent hsent => ?_, fun u hu => ?_, fun earlier q later heq pre offer result post hcalls hoffset => ?_⟩
  · obtain ⟨u, hu, hrest⟩ := h.prefixes sent hsent
    exact ⟨u, List.mem_append_left _ hu, hrest⟩
  · rw [List.mem_append, List.mem_singleton] at hu
    obtain hu | rfl := hu
    · exact h.once u hu
    · rw [transmitted_unknown h.prefixes hfresh]
      exact Nat.zero_le _
  · obtain ⟨u, hu, hid, hrequest, hfirst⟩ := h.first earlier q later heq pre offer result post hcalls hoffset
    exact ⟨u, List.mem_append_left _ hu, hid, hrequest, hfirst.exclusive.admission [t], hfirst.validated, hfirst.again⟩

/-- A new transaction waits with nothing of it on the wire. -/
theorem Inv.admission {t : Transaction} {waiting' : List Transaction} (h : Inv admitted polls waiting state)
    (horigin : t.origin = t) (hfresh : ∀ u ∈ admitted, u.id ≠ t.id)
    (hwaiting : ∀ u ∈ waiting', u ∈ waiting ∨ u = t) : Inv (admitted ++ [t]) polls waiting' state := by
  refine ⟨h.orderly.admission hfresh, fun e he id hid => ?_, fun u hu => ?_, stateInv_admit h.state⟩
  · obtain ⟨u, hu, hrest⟩ := h.known e he id hid
    exact ⟨u, List.mem_append_left _ hu, hrest⟩
  · obtain hu | rfl := hwaiting u hu
    · have hu := h.waits u hu
      exact ⟨List.mem_append_left _ hu.origin, hu.retried, hu.withdrawn, hu.count, hu.unoffered⟩
    · have hretries : u.retries = 0 := by rw [← horigin]; rfl
      have hunoffered : ∀ e ∈ wireOf polls, e.offers u.id = false := by
        intro e he
        by_contra hoffers
        obtain ⟨v, hv, hid⟩ := h.known e he u.id (by simpa using hoffers)
        exact hfresh v hv hid
      refine ⟨?_, ⟨by omega, fun hne => absurd hretries hne⟩, withdrawn_of_unoffered fun e he hcarried => ?_, ?_,
        fun _ => hunoffered⟩
      · rw [horigin]
        exact List.mem_append_right _ (List.mem_singleton_self u)
      · have hoffers := hunoffered e he
        rw [WireEvent.offers_of_carried hcarried] at hoffers
        exact Bool.noConfusion hoffers
      · rw [transmitted_unknown h.orderly.prefixes hfresh]
        exact Nat.zero_le _

/-! ### Runs -/

variable {o o' : Owner ω}

/-- The invariant of a run, with the outputs among what it admitted. -/
structure OwnerInv (o : Owner ω) : Prop where
  inv : Inv o.admitted o.polls o.executor.waiting o.executor.state
  outputs : ∀ t ∈ o.admitted, t.kind.intent.isSome → t.retryable = false

theorem OwnerInv.admission {t : Transaction} {s : ResourceExecutor} (h : OwnerInv o) (hnum : o.Numbered)
    (admits : Admits o.executor t) (hwaiting : ∀ u ∈ s.waiting, u ∈ o.executor.waiting ∨ u = t)
    (hstate : s.state = o.executor.state) :
    OwnerInv { o with executor := s, admitted := o.admitted ++ [t] } := by
  refine ⟨?_, fun u hu => ?_⟩
  · show Inv (o.admitted ++ [t]) o.polls s.waiting s.state
    rw [hstate]
    refine h.inv.admission admits.origin (fun u hu heq => ?_) hwaiting
    have := hnum.below u.id (List.mem_map_of_mem hu)
    rw [heq, admits.id] at this
    exact lt_irrefl _ this
  · obtain hu | hu := List.mem_append.1 hu
    · exact h.outputs u hu
    · rw [List.mem_singleton.1 hu]
      exact admits.once

/-- Every call keeps the wire serial, unless it is a poll that abandons a transaction. -/
theorem Moved.inv (h : Moved o o') (hinv : OwnerInv o) (hnum : o.Numbered) (single : ∀ id, o.executor.held id ≤ 1)
    (ok : ∀ p, o'.polls = o.polls ++ [p] → o.executor.lastPoll ≤ p.time →
      lossy o.executor.recoveryTimeout o.executor.state p = false) : OwnerInv o' := by
  cases h with
  | rejected => exact hinv
  | queued admits =>
    refine hinv.admission hnum admits (fun u hu => ?_) rfl
    rw [waiting, ← List.append_assoc, List.mem_append, List.mem_singleton] at hu
    exact hu
  | slotted admits free =>
    refine hinv.admission hnum admits (fun u hu => ?_) rfl
    rw [waiting, List.mem_append, Option.toList_some, List.mem_singleton] at hu
    exact hu.symm.imp_left (List.mem_append_right _)
  | @polled now calls result s w h =>
    exact ⟨h.inv rfl rfl hinv.inv hnum.nodup single hinv.outputs (ok _ rfl), hinv.outputs⟩
  | fenced idle =>
    exact ⟨hinv.inv.shrink (fun t ht => List.mem_append_left _ (by simpa [waiting] using ht)) trivial, hinv.outputs⟩
  | cancelledSafe slot =>
    exact ⟨hinv.inv.shrink (fun t ht => List.mem_append_right _ ht) hinv.inv.state, hinv.outputs⟩
  | cancelled queue =>
    refine ⟨hinv.inv.shrink (fun t ht => ?_) hinv.inv.state, hinv.outputs⟩
    simp only [waiting, queue, List.mem_append, List.mem_cons] at ht ⊢
    obtain ht | ht | ht := ht
    · exact .inl ht
    · exact .inr (.inl ht)
    · exact .inr (.inr (.inr ht))
  | retired h =>
    obtain ⟨hwaiting, hstate⟩ := h.shrinks
    refine ⟨hinv.inv.shrink (fun t ht => by simp [hwaiting] at ht) ?_, hinv.outputs⟩
    obtain hstate | hstate := hstate
    · rw [hstate]
      exact hinv.inv.state
    · rw [hstate]
      trivial
  | took => exact ⟨hinv.inv, hinv.outputs⟩

/-- The polls of a run that lose a transaction with bytes on the wire too late to recover from it. -/
def Owner.strands (B : Boundary ω) (o : Owner ω) (op : ExecutorOp) : Bool :=
  ((o.step B op).polls.drop o.polls.length).any fun p =>
    decide (o.executor.lastPoll ≤ p.time) && lossy o.executor.recoveryTimeout o.executor.state p

theorem run_inv (fresh : s.Fresh) (w : ω) (ops : List ExecutorOp)
    (ok : ¬ History.Happens (Owner.step B) (fun o op => o.strands B op = true) (Owner.start s w) ops) :
    OwnerInv (Owner.run B s w ops) := by
  revert ok
  refine History.run_induction (I := fun ops (o : Owner ω) =>
    ¬ History.Happens (Owner.step B) (fun o op => o.strands B op = true) (Owner.start s w) ops → OwnerInv o)
    ?_ ?_ ops
  · intro _
    obtain ⟨hq, hf, ht, he⟩ := fresh
    refine ⟨⟨⟨?_, ?_, ?_⟩, ?_, ?_, ?_⟩, ?_⟩
    · intro sent hsent
      cases hsent
    · intro t ht
      cases ht
    · intro earlier p later heq
      simp [Owner.start] at heq
    · intro e he
      cases he
    · intro t ht
      simp [Owner.start, waiting, hq, hf] at ht
    · show StateInv [] [] s.state
      rw [ht]
      exact History.onward_nil
    · intro t ht
      cases ht
  · intro ops op ih ok
    rw [History.happens_snoc, not_or] at ok
    have hnum : (Owner.run B s w ops).Numbered := run_numbered s w ops
    refine (step_moved _ op).inv (ih ok.1) hnum (fun id => run_held_le fresh w ops id) fun p hp hlater => ?_
    have hstrands := ok.2
    rw [Owner.strands, hp, List.drop_left] at hstrands
    simpa [hlater] using hstrands

/-- What serializing the wire means for a run. -/
structure Serialized (o : Owner ω) : Prop where
  nodup : o.ids.Nodup
  concatenated : o.wire.flatMap WireEvent.accepted = (transmissions o.wire).reverse.flatMap Prod.snd
  prefixes : Prefixes o.admitted o.wire
  once : ∀ t ∈ o.admitted, transmitted o.wire t.id ≤ if t.kind.intent.isSome then 1 else 2
  first : ∀ earlier p later, o.polls = earlier ++ p :: later → FirstOffers o.admitted earlier p

/-- In every run in which no poll abandons a transaction with bytes on the wire, the accepted bytes are
request prefixes, each started on a clear wire, after its final checks and as often as it may be. -/
theorem wire_serialized {s : ResourceExecutor} (made : Made s) (w : ω) (ops : List ExecutorOp)
    (ok : ¬ History.Happens (Owner.step B) (fun o op => o.strands B op = true) (Owner.start s w) ops) :
    Serialized (Owner.run B s w ops) := by
  have hinv := run_inv made.fresh w ops ok
  refine ⟨(run_numbered s w ops).nodup, accepted_transmissions _, hinv.inv.orderly.prefixes, fun t ht => ?_,
    hinv.inv.orderly.first⟩
  have honce := hinv.inv.orderly.once t ht
  split_ifs with houtput
  · rwa [hinv.outputs t ht houtput, if_neg Bool.false_ne_true] at honce
  · split_ifs at honce
    · exact honce
    · exact honce.trans one_le_two

theorem wire_serialized_lossyRun :
    (¬ History.Happens (Owner.step scripted) (fun o op => o.strands scripted op = true)
        (Owner.start newExecutor { writes := [.ok 1, .error .other] }) lossyRun) ∧
      Serialized (Owner.run scripted newExecutor { writes := [.ok 1, .error .other] } lossyRun) := by
  have ok : ¬ History.Happens (Owner.step scripted) (fun o op => o.strands scripted op = true)
      (Owner.start newExecutor { writes := [.ok 1, .error .other] }) lossyRun := by decide
  exact ⟨ok, wire_serialized newExecutor_made _ _ ok⟩

/-- A poll this late has no recovery deadline that fits in a `Duration`. -/
def lateTime : ℕ := durationMax - 3

/-- Half of a request is accepted, the next write fails, and another read is served at once. -/
def strandedRun : List ExecutorOp :=
  [.enqueueRead [1, 2] 1 (lateTime - 1) durationMax 1 false 1 1, .poll lateTime, .poll lateTime,
    .takeEvent, .enqueueRead [3, 4] 1 lateTime durationMax 1 false 1 1, .poll lateTime]

def strandedWire : Owner Script :=
  Owner.run scripted newExecutor { writes := [.ok 1, .error .other] } strandedRun

theorem strandedWire_polls : ∃ p, p.calls = [.write ⟨2, 0, [3, 4]⟩ (.ok 2), .read 2 2 (.ok 1) [0, 0]] ∧
    strandedWire.polls =
      [⟨lateTime, [.write ⟨1, 0, [1, 2]⟩ (.ok 1)], .ok none⟩,
        ⟨lateTime, [.write ⟨1, 1, [2]⟩ (.error .other)], .error .invalidTransaction⟩, p] :=
  ⟨_, rfl, rfl⟩

/-- The second request is offered on top of half of the first: no recovery happened in between. -/
theorem stranded_wire_not_serialized : ¬ Serialized strandedWire := by
  intro h
  obtain ⟨p, hcalls, hpolls⟩ := strandedWire_polls
  obtain ⟨t, ht, hid, -, hfirst⟩ := h.first [_, _] p [] hpolls [] _ _ _ hcalls rfl
  obtain hrecovered | ⟨u, hu, -, hreceived⟩ := hfirst.exclusive [] _ _ rfl 1 rfl
  · simp [Recovered] at hrecovered
  · have hresponse : ∀ u ∈ strandedWire.admitted, u.expectedResponse = 1 := by decide
    rw [hresponse u hu] at hreceived
    simp [received, WireEvent.answered] at hreceived

end ResourceExecutor
end LabRuntime
