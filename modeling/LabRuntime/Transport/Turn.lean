import LabRuntime.Transport.Executor

/-! Everything one poll can do, with the calls it makes on the outside and the answers it gets.
`Progress` lists the turns of an owner state; `poll_spec` says every poll is one of them, whatever
the adapter and the authorizer answer. -/

namespace LabRuntime

/-- A call an executor makes on its adapter or on the authorizer, with the answer. -/
inductive WireEvent
  | write (offer : Offer) (result : Except TransportIoError ℕ)
  | read (id length : ℕ) (result : Except TransportIoError ℕ) (bytes : List UInt8)
  | recover (result : Except TransportIoError RecoveryStatus)
  | shutdown (result : TransportShutdown)
  | authorize (intent : OutputIntent) (step : AuthorizationStep) (answer : Except Unit (Option DispatchId))

/-- A world that keeps the calls made on it in order. -/
structure Recorder {ω : Type} (B : Boundary ω) where
  log : ω → List WireEvent
  write : ∀ w offer, log (B.tryWrite w offer).2 = log w ++ [.write offer (B.tryWrite w offer).1]
  read : ∀ w id length, log (B.tryRead w id length).2.2 =
    log w ++ [.read id length (B.tryRead w id length).1 (B.tryRead w id length).2.1.toList]
  recover : ∀ w, log (B.tryRecover w).2 = log w ++ [.recover (B.tryRecover w).1]
  shutdown : ∀ w, log (B.tryShutdown w).2 = log w ++ [.shutdown (B.tryShutdown w).1]
  authorize : ∀ w intent step, log (B.authorize w intent step).2 =
    log w ++ [.authorize intent step (B.authorize w intent step).1]

/-- Any outside, with a record beside it. -/
def Boundary.recorded {ω : Type} (B : Boundary ω) : Boundary (ω × List WireEvent) where
  tryWrite := fun (w, log) offer =>
    let (result, w) := B.tryWrite w offer
    (result, w, log ++ [.write offer result])
  tryRead := fun (w, log) id length =>
    let (result, buffer, w) := B.tryRead w id length
    (result, buffer, w, log ++ [.read id length result buffer.toList])
  tryRecover := fun (w, log) =>
    let (result, w) := B.tryRecover w
    (result, w, log ++ [.recover result])
  tryShutdown := fun (w, log) =>
    let (result, w) := B.tryShutdown w
    (result, w, log ++ [.shutdown result])
  authorize := fun (w, log) intent step =>
    let (answer, w) := B.authorize w intent step
    (answer, w, log ++ [.authorize intent step answer])

def Boundary.recorder {ω : Type} (B : Boundary ω) : Recorder B.recorded where
  log := Prod.snd
  write := fun _ _ => rfl
  read := fun _ _ _ => rfl
  recover := fun _ => rfl
  shutdown := fun _ => rfl
  authorize := fun _ _ _ => rfl

namespace ResourceExecutor

/-- The calls before an offer: an output with nothing accepted yet is validated once more. -/
inductive Offers (a : Active) : List WireEvent → Prop
  | resumed (h : a.writeOffset ≠ 0) : Offers a []
  | read (h : a.transaction.kind = .read) : Offers a []
  | validated {output answer} (h : a.writeOffset = 0) (kind : a.transaction.kind = .output output) :
    Offers a [.authorize output.intent .validate (.ok answer)]

/-- A write phase that the transaction survives. -/
inductive Wrote (a : Active) : List WireEvent → Active → Prop
  | skipped (h : ¬ a.writeOffset < a.transaction.request.length) : Wrote a [] a
  | accepted {calls n} (open_ : a.writeOffset < a.transaction.request.length) (offers : Offers a calls)
    (bound : n ≤ a.remaining.length) (plain : a.writeOffset ≠ 0 ∨ n = 0 ∨ a.transaction.kind = .read) :
    Wrote a (calls ++ [.write a.offer (.ok n)]) { a with writeOffset := a.writeOffset + n }
  | started {calls n output dispatch} (open_ : a.writeOffset < a.transaction.request.length)
    (offers : Offers a calls) (bound : n ≤ a.remaining.length) (first : a.writeOffset = 0) (positive : 0 < n)
    (kind : a.transaction.kind = .output output) :
    Wrote a (calls ++ [.write a.offer (.ok n), .authorize output.intent .started (.ok (some dispatch))])
      { a with
        writeOffset := a.writeOffset + n
        transaction := { a.transaction with kind := .output { output with dispatch := some dispatch } } }

/-- The turns after which the byte boundary is unknown. -/
inductive Lost (a : Active) (now : ℕ) : List WireEvent → Active → Prop
  | expired (h : a.executionDeadline ≤ now) : Lost a now [] a
  | writeFailed {calls e} (intime : now < a.executionDeadline)
    (open_ : a.writeOffset < a.transaction.request.length) (offers : Offers a calls) :
    Lost a now (calls ++ [.write a.offer (.error e)]) a
  | overlong {calls n} (intime : now < a.executionDeadline)
    (open_ : a.writeOffset < a.transaction.request.length) (offers : Offers a calls)
    (bound : a.remaining.length < n) : Lost a now (calls ++ [.write a.offer (.ok n)]) a
  | unstarted {calls n output answer} (intime : now < a.executionDeadline)
    (open_ : a.writeOffset < a.transaction.request.length) (offers : Offers a calls)
    (bound : n ≤ a.remaining.length) (first : a.writeOffset = 0) (positive : 0 < n)
    (kind : a.transaction.kind = .output output) (rejected : ∀ dispatch, answer ≠ .ok (some dispatch)) :
    Lost a now (calls ++ [.write a.offer (.ok n), .authorize output.intent .started answer]) a
  | readFailed {calls a' e bytes} (intime : now < a.executionDeadline) (wrote : Wrote a calls a')
    (sent : a'.sent) :
    Lost a now (calls ++ [.read a'.transaction.id (a'.missing + 1) (.error e) bytes]) a'

/-- The turns of an active transaction. -/
inductive Served (s : ResourceExecutor) (a : Active) (now : ℕ) : List WireEvent → Turn → Prop
  | lost {calls a'} (h : Lost a now calls a') : Served s a now calls (s.enterRecovery a' now)
  | refused {output e} (intime : now < a.executionDeadline)
    (open_ : a.writeOffset < a.transaction.request.length) (first : a.writeOffset = 0)
    (kind : a.transaction.kind = .output output) :
    Served s a now [.authorize output.intent .validate (.error e)]
      (.ok .idle, s.finish a.transaction .failed false none)
  | waiting {calls a'} (intime : now < a.executionDeadline) (wrote : Wrote a calls a') (unsent : ¬ a'.sent) :
    Served s a now calls (.ok (.active a'), s)
  | overread {calls a' n bytes} (intime : now < a.executionDeadline) (wrote : Wrote a calls a') (sent : a'.sent)
    (bound : a'.missing < n) :
    Served s a now (calls ++ [.read a'.transaction.id (a'.missing + 1) (.ok n) bytes])
      (s.enterProtocolRecovery a' now)
  | partly {calls a' n bytes} (intime : now < a.executionDeadline) (wrote : Wrote a calls a') (sent : a'.sent)
    (bound : n ≤ a'.missing) (size : bytes.length = a'.missing + 1)
    (short : (a'.response ++ bytes.take n).length ≠ a'.transaction.expectedResponse) :
    Served s a now (calls ++ [.read a'.transaction.id (a'.missing + 1) (.ok n) bytes])
      (.ok (.active { a' with response := a'.response ++ bytes.take n }), s)
  | completed {calls a' n bytes} (intime : now < a.executionDeadline) (wrote : Wrote a calls a') (sent : a'.sent)
    (bound : n ≤ a'.missing) (size : bytes.length = a'.missing + 1)
    (exact_ : (a'.response ++ bytes.take n).length = a'.transaction.expectedResponse) :
    Served s a now (calls ++ [.read a'.transaction.id (a'.missing + 1) (.ok n) bytes])
      (.ok .idle, s.finish a'.transaction .completed (decide (a'.writeOffset > 0))
        (some (a'.response ++ bytes.take n)))

/-- The turns of an owner state, which `s` itself no longer holds. -/
inductive Progress (s : ResourceExecutor) (now : ℕ) : OwnedState → List WireEvent → Turn → Prop
  | rest (h : s.takeNext = (none, s)) : Progress s now .idle [] (.ok .idle, s)
  | queueExpired {t s'} (next : s.takeNext = (some t, s')) (late : t.queueDeadline ≤ now) :
    Progress s now .idle [] (.ok .idle, s'.finish t .queueExpired false none)
  | unschedulable {t s'} (next : s.takeNext = (some t, s')) (overflow : durationAdd now t.timeout = none) :
    Progress s now .idle [] (.error .invalidTransaction, s')
  | begun {t s' deadline calls turn} (next : s.takeNext = (some t, s')) (intime : now < t.queueDeadline)
    (schedule : durationAdd now t.timeout = some deadline)
    (served : Served s' { transaction := t, writeOffset := 0, response := [],
                          executionDeadline := min deadline t.queueDeadline } now calls turn) :
    Progress s now .idle calls turn
  | active {a calls turn} (served : Served s a now calls turn) : Progress s now (.active a) calls turn
  | timedOut {r : Recovery} (late : r.deadline ≤ now) :
    Progress s now (.recovering r) [] (.ok .offline, s.finish r.transaction .failed r.started none)
  | recovering {r : Recovery} (intime : now < r.deadline) :
    Progress s now (.recovering r) [.recover (.ok .pending)] (.ok (.recovering r), s)
  | exhausted {r : Recovery} (counter : s.generation = u64Max ∨ u64Max < s.generation) :
    Progress s now (.recovering r) [.recover (.ok .complete)] (.error .counterExhausted, s)
  | retried {r : Recovery} (intime : now < r.deadline) (retryable : r.transaction.retryable = true)
    (first : r.transaction.retries = 0) (queue : now < r.transaction.queueDeadline) :
    Progress s now (.recovering r) [.recover (.ok .complete)]
      (.ok .idle, { s with
        generation := s.generation + 1, queue := { r.transaction with retries := 1 } :: s.queue })
  | recovered {r : Recovery} (intime : now < r.deadline) :
    Progress s now (.recovering r) [.recover (.ok .complete)]
      (.ok .idle, finish { s with generation := s.generation + 1 } r.transaction .failed r.started none)
  | unrecovered {r : Recovery} {e} (intime : now < r.deadline) :
    Progress s now (.recovering r) [.recover (.error e)]
      (.ok .offline, s.finish r.transaction .failed r.started none)
  | boundaryLate {deadline} (late : deadline ≤ now) :
    Progress s now (.protocolRecovery deadline) []
      (.ok .offline, { s with events := s.events ++ [.boundaryFailed] })
  | boundaryPending {deadline} : Progress s now (.protocolRecovery deadline) [.recover (.ok .pending)]
      (.ok (.protocolRecovery deadline), s)
  | boundaryExhausted {deadline} (counter : s.generation = u64Max ∨ u64Max < s.generation) :
    Progress s now (.protocolRecovery deadline) [.recover (.ok .complete)] (.error .counterExhausted, s)
  | boundaryRecovered {deadline} :
    Progress s now (.protocolRecovery deadline) [.recover (.ok .complete)]
      (.ok .idle, { s with generation := s.generation + 1, events := s.events ++ [.boundaryRecovered] })
  | boundaryFailed {deadline e} : Progress s now (.protocolRecovery deadline) [.recover (.error e)]
      (.ok .offline, { s with events := s.events ++ [.boundaryFailed] })
  | offline : Progress s now .offline [] (.ok .offline, s)

/-- What a poll returns and leaves. -/
inductive Polled (s : ResourceExecutor) (now : ℕ) :
    List WireEvent → Except TransportError (Option TransportEvent) → ResourceExecutor → Prop
  | backwards (h : now < s.lastPoll) : Polled s now [] (.error .invalidTime) s
  | popped {event rest} (later : s.lastPoll ≤ now) (h : s.events = event :: rest) :
    Polled s now [] (.ok (some event)) { s with lastPoll := now, events := rest }
  | failed {calls error s'} (later : s.lastPoll ≤ now) (drained : s.events = [])
    (progress : Progress { s with lastPoll := now, state := .idle } now s.state calls (.error error, s')) :
    Polled s now calls (.error error) s'
  | progressed {calls state s'} (later : s.lastPoll ≤ now) (drained : s.events = [])
    (progress : Progress { s with lastPoll := now, state := .idle } now s.state calls (.ok state, s')) :
    Polled s now calls (.ok s'.events.head?) { s' with state := state, events := s'.events.tail }

/-! ### Fencing -/

theorem fence_foldl (queue : List Transaction) (s : ResourceExecutor) :
    queue.foldl fenceQueuedTransaction s = { s with events := s.events ++ queue.map s.fencedEvent } := by
  induction queue generalizing s with
  | nil => simp
  | cons t queue ih =>
    rw [List.foldl_cons, ih]
    simp only [fenceQueuedTransaction, List.map_cons, List.append_assoc, List.singleton_append]
    rfl

/-- The loop over the ordinary queue reports its transactions in order. -/
theorem fenceOrdinaryQueue_eq (s : ResourceExecutor) : s.fenceOrdinaryQueue =
    { s with queue := [], events := s.events ++ s.queue.map s.fencedEvent } := fence_foldl ..

/-- An executor that lost the boundary of its active transaction. -/
def lose (s : ResourceExecutor) (a : Active) : ResourceExecutor :=
  { s with queue := [], events := s.events ++ lostEvents a ++ s.queue.map s.fencedEvent }

theorem enterRecovery_eq (s : ResourceExecutor) (a : Active) (now : ℕ) : s.enterRecovery a now =
    match durationAdd now s.recoveryTimeout with
    | none => (.error .invalidTransaction, s.lose a)
    | some deadline =>
      (.ok (.recovering
        { transaction := a.transaction, started := decide (a.writeOffset > 0), deadline := deadline }), s.lose a) := by
  unfold enterRecovery lose
  simp only [fenceOrdinaryQueue_eq]
  rfl

/-- An executor that rejected an overlong response. -/
def reject (s : ResourceExecutor) (a : Active) : ResourceExecutor :=
  let t := s.finish a.transaction .failed (decide (a.writeOffset > 0)) none
  { t with queue := [], events := t.events ++ s.queue.map s.fencedEvent }

theorem enterProtocolRecovery_eq (s : ResourceExecutor) (a : Active) (now : ℕ) :
    s.enterProtocolRecovery a now =
      match durationAdd now s.recoveryTimeout with
      | none => (.error .invalidTransaction, s.reject a)
      | some deadline => (.ok (.protocolRecovery deadline), s.reject a) := by
  unfold enterProtocolRecovery reject
  simp only [fenceOrdinaryQueue_eq]
  rfl

/-- The safe slot goes first; the queue goes in order. -/
theorem takeNext_some {s s' : ResourceExecutor} {t : Transaction} (h : s.takeNext = (some t, s')) :
    (s.safeQueue = some t ∧ s' = { s with safeQueue := none }) ∨
      (s.safeQueue = none ∧ ∃ rest, s.queue = t :: rest ∧ s' = { s with queue := rest }) := by
  unfold takeNext at h
  cases hslot : s.safeQueue with
  | some t' =>
    rw [hslot] at h
    obtain ⟨rfl, rfl⟩ : t' = t ∧ _ = s' := by simpa using h
    exact .inl ⟨rfl, rfl⟩
  | none =>
    rw [hslot] at h
    cases hqueue : s.queue with
    | nil => simp [hqueue] at h
    | cons t' rest =>
      rw [hqueue] at h
      obtain ⟨rfl, rfl⟩ : t' = t ∧ _ = s' := by simpa using h
      exact .inr ⟨rfl, rest, rfl, rfl⟩

theorem takeNext_events {s s' : ResourceExecutor} {t : Transaction} (h : s.takeNext = (some t, s')) :
    s'.events = s.events := by
  obtain ⟨-, rfl⟩ | ⟨-, rest, -, rfl⟩ := takeNext_some h <;> rfl

/-! ### Every poll is one of these -/

variable {ω : Type} {B : Boundary ω} {s : ResourceExecutor} {w w' w'' : ω} {a : Active} {now : ℕ}
  {calls calls' : List WireEvent}

/-- The calls that led from one world to another, as any recorder has them. -/
def Calls (B : Boundary ω) (w w' : ω) (calls : List WireEvent) : Prop :=
  ∀ R : Recorder B, R.log w' = R.log w ++ calls

theorem Calls.none : Calls B w w [] := fun _ => (List.append_nil _).symm

theorem Calls.append (h : Calls B w w' calls) (h' : Calls B w' w'' calls') :
    Calls B w w'' (calls ++ calls') := fun R => by rw [h' R, h R, List.append_assoc]

theorem calls_write (offer : Offer) :
    Calls B w (B.tryWrite w offer).2 [.write offer (B.tryWrite w offer).1] := fun R => R.write w offer

theorem calls_read (id length : ℕ) : Calls B w (B.tryRead w id length).2.2
    [.read id length (B.tryRead w id length).1 (B.tryRead w id length).2.1.toList] := fun R => R.read w id length

theorem calls_recover : Calls B w (B.tryRecover w).2 [.recover (B.tryRecover w).1] := fun R => R.recover w

theorem calls_authorize (intent : OutputIntent) (step : AuthorizationStep) :
    Calls B w (B.authorize w intent step).2 [.authorize intent step (B.authorize w intent step).1] :=
  fun R => R.authorize w intent step

/-- The result of a write phase. -/
inductive Phase (s : ResourceExecutor) (a : Active) (now : ℕ) : List WireEvent → Turn ⊕ Active → Prop
  | next {c a'} (h : Wrote a c a') : Phase s a now c (.inr a')
  | lost {c} (h : Lost a now c a) : Phase s a now c (.inl (s.enterRecovery a now))
  | refused {output e} (first : a.writeOffset = 0) (kind : a.transaction.kind = .output output) :
    Phase s a now [.authorize output.intent .validate (.error e)]
      (.inl (.ok .idle, s.finish a.transaction .failed false none))

theorem acceptBytes_spec {n : ℕ} (intime : now < a.executionDeadline)
    (hopen : a.writeOffset < a.transaction.request.length) (offers : Offers a calls)
    (bound : n ≤ a.remaining.length) (h : Calls B w w' (calls ++ [.write a.offer (.ok n)])) :
    ∃ calls', Phase s a now calls' (s.acceptBytes B w' a n now).1 ∧
      Calls B w (s.acceptBytes B w' a n now).2 calls' := by
  unfold acceptBytes
  dsimp only
  split_ifs with hfirst
  · cases hk : a.transaction.kind with
    | read => exact ⟨_, .next (.accepted hopen offers bound (.inr (.inr hk))), h⟩
    | output output =>
      have hstart := h.append (calls_authorize output.intent .started)
      rw [List.append_assoc] at hstart
      dsimp only
      rcases hans : B.authorize w' output.intent .started with ⟨answer, w2⟩
      rw [hans] at hstart
      have hlost : (∀ dispatch, answer ≠ .ok (some dispatch)) →
          Phase s a now (calls ++ [.write a.offer (.ok n), .authorize output.intent .started answer])
            (.inl (s.enterRecovery a now)) := fun hr =>
        .lost (.unstarted intime hopen offers bound hfirst.1 hfirst.2 hk hr)
      match answer, hlost, hstart with
      | .ok (some id), _, hstart =>
        exact ⟨_, .next (.started hopen offers bound hfirst.1 hfirst.2 hk), hstart⟩
      | .ok none, hlost, hstart => exact ⟨_, hlost (by simp), hstart⟩
      | .error e, hlost, hstart => exact ⟨_, hlost (by simp), hstart⟩
  · refine ⟨_, .next (.accepted hopen offers bound ?_), h⟩
    by_cases h0 : a.writeOffset = 0
    · exact .inr (.inl (by omega))
    · exact .inl h0

theorem offerRequest_ok {n : ℕ} (h : B.tryWrite w a.offer = (.ok n, w')) : s.offerRequest B w a now =
    if n ≤ a.remaining.length then s.acceptBytes B w' a n now else (.inl (s.enterRecovery a now), w') := by
  unfold offerRequest
  rw [h]

theorem offerRequest_error {e : TransportIoError} (h : B.tryWrite w a.offer = (.error e, w')) :
    s.offerRequest B w a now = (.inl (s.enterRecovery a now), w') := by
  unfold offerRequest
  rw [h]

theorem offerRequest_spec (intime : now < a.executionDeadline)
    (hopen : a.writeOffset < a.transaction.request.length) (offers : Offers a calls) (h : Calls B w w' calls) :
    ∃ calls', Phase s a now calls' (s.offerRequest B w' a now).1 ∧
      Calls B w (s.offerRequest B w' a now).2 calls' := by
  have hwrite := h.append (calls_write a.offer)
  rcases hres : B.tryWrite w' a.offer with ⟨e | n, w2⟩
  · rw [hres] at hwrite
    rw [offerRequest_error hres]
    exact ⟨_, .lost (.writeFailed intime hopen offers), hwrite⟩
  · rw [hres] at hwrite
    rw [offerRequest_ok hres]
    split_ifs with hn
    · exact acceptBytes_spec intime hopen offers hn hwrite
    · exact ⟨_, .lost (.overlong intime hopen offers (not_le.1 hn)), hwrite⟩

theorem writeRequest_spec (intime : now < a.executionDeadline)
    (hopen : a.writeOffset < a.transaction.request.length) :
    ∃ calls, Phase s a now calls (s.writeRequest B w a now).1 ∧ Calls B w (s.writeRequest B w a now).2 calls := by
  unfold writeRequest
  split_ifs with h0
  · cases hk : a.transaction.kind with
    | read => exact offerRequest_spec intime hopen (.read hk) .none
    | output output =>
      have hval := calls_authorize (B := B) (w := w) output.intent .validate
      dsimp only
      rcases hans : B.authorize w output.intent .validate with ⟨e | answer, w1⟩
      · rw [hans] at hval
        exact ⟨_, .refused h0 hk, hval⟩
      · rw [hans] at hval
        exact offerRequest_spec intime hopen (.validated h0 hk) hval
  · exact offerRequest_spec intime hopen (.resumed h0) .none

theorem readResponse_spec (intime : now < a.executionDeadline) {a' : Active} (wrote : Wrote a calls a')
    (h : Calls B w w' calls) :
    ∃ calls', Served s a now calls' (s.readResponse B w' a' now).1 ∧
      Calls B w (s.readResponse B w' a' now).2 calls' := by
  unfold readResponse
  split_ifs with hsent
  · have hread := h.append (calls_read a'.transaction.id (a'.missing + 1))
    rcases hres : B.tryRead w' a'.transaction.id (a'.missing + 1) with ⟨e | n, buffer, w2⟩
    · rw [hres] at hread
      exact ⟨_, .lost (.readFailed intime wrote hsent), hread⟩
    · rw [hres] at hread
      dsimp only
      split_ifs with hn hlen
      · exact ⟨_, .completed intime wrote hsent hn buffer.length_toList hlen, hread⟩
      · exact ⟨_, .partly intime wrote hsent hn buffer.length_toList hlen, hread⟩
      · exact ⟨_, .overread intime wrote hsent (not_le.1 hn), hread⟩
  · exact ⟨_, .waiting intime wrote hsent, h⟩

theorem progressActive_spec : ∃ calls, Served s a now calls (s.progressActive B w a now).1 ∧
    Calls B w (s.progressActive B w a now).2 calls := by
  unfold progressActive
  split_ifs with hx hopen
  · exact ⟨_, .lost (.expired hx), .none⟩
  · obtain ⟨calls, hphase, hcalls⟩ := writeRequest_spec (s := s) (w := w) (B := B) (not_le.1 hx) hopen
    rcases hres : s.writeRequest B w a now with ⟨turn | a', w1⟩
    · rw [hres] at hphase hcalls
      cases hphase with
      | lost h => exact ⟨_, .lost h, hcalls⟩
      | refused first kind => exact ⟨_, .refused (not_le.1 hx) hopen first kind, hcalls⟩
    · rw [hres] at hphase hcalls
      cases hphase with
      | next h => exact readResponse_spec (not_le.1 hx) h hcalls
  · exact readResponse_spec (not_le.1 hx) (.skipped hopen) .none

theorem nextGeneration_spec : (s.nextGeneration = .ok { s with generation := s.generation + 1 }) ∨
    (s.nextGeneration = .error .counterExhausted ∧ (s.generation = u64Max ∨ u64Max < s.generation)) := by
  unfold nextGeneration
  by_cases h : s.generation + 1 ≤ u64Max
  · rw [checkedAdd_eq_some.2 ⟨rfl, h⟩]; exact .inl rfl
  · rw [checkedAdd_eq_none.2 (not_le.1 h)]; exact .inr ⟨rfl, by omega⟩

theorem progress_spec (state : OwnedState) : ∃ calls, Progress s now state calls (progress B s w state now).1 ∧
    Calls B w (progress B s w state now).2 calls := by
  cases state with
  | idle =>
    unfold progress startOrRemainIdle
    rcases hnext : s.takeNext with ⟨none | t, s'⟩
    · have hs : s' = s := by
        unfold takeNext at hnext
        split at hnext <;> simp_all
      subst hs
      exact ⟨_, .rest hnext, .none⟩
    · dsimp only
      split_ifs with hq
      · exact ⟨_, .queueExpired hnext hq, .none⟩
      · cases hd : durationAdd now t.timeout with
        | none => exact ⟨_, .unschedulable hnext hd, .none⟩
        | some deadline =>
          let a : Active := { transaction := t, writeOffset := 0, response := [], executionDeadline := min deadline t.queueDeadline }
          obtain ⟨calls, hserved, hcalls⟩ : ∃ calls, Served s' a now calls (s'.progressActive B w a now).1 ∧
              Calls B w (s'.progressActive B w a now).2 calls := progressActive_spec
          exact ⟨_, .begun hnext (not_le.1 hq) hd hserved, hcalls⟩
  | active a =>
    obtain ⟨calls, hserved, hcalls⟩ : ∃ calls, Served s a now calls (s.progressActive B w a now).1 ∧
        Calls B w (s.progressActive B w a now).2 calls := progressActive_spec
    exact ⟨_, .active hserved, hcalls⟩
  | recovering r =>
    unfold progress progressRecovery
    dsimp only
    by_cases hx : now ≥ r.deadline
    · rw [if_pos hx]
      exact ⟨_, .timedOut hx, .none⟩
    · rw [if_neg hx]
      have hcalls := calls_recover (B := B) (w := w)
      rcases hres : B.tryRecover w with ⟨e | status, w1⟩
      · rw [hres] at hcalls
        exact ⟨_, .unrecovered (not_le.1 hx), hcalls⟩
      · rw [hres] at hcalls
        cases status with
        | pending => exact ⟨_, .recovering (not_le.1 hx), hcalls⟩
        | complete =>
          dsimp only
          rcases nextGeneration_spec (s := s) with hg | ⟨hg, hmax⟩
          · rw [hg]
            dsimp only
            by_cases hretry : r.transaction.retryable ∧ r.transaction.retries = 0 ∧ now < r.transaction.queueDeadline
            · rw [if_pos hretry]
              exact ⟨_, .retried (not_le.1 hx) hretry.1 hretry.2.1 hretry.2.2, hcalls⟩
            · rw [if_neg hretry]
              exact ⟨_, .recovered (not_le.1 hx), hcalls⟩
          · rw [hg]
            exact ⟨_, .exhausted hmax, hcalls⟩
  | protocolRecovery deadline =>
    unfold progress progressProtocolRecovery
    dsimp only
    split_ifs with hx
    · exact ⟨_, .boundaryLate hx, .none⟩
    · have hcalls := calls_recover (B := B) (w := w)
      rcases hres : B.tryRecover w with ⟨e | status, w1⟩
      · rw [hres] at hcalls
        exact ⟨_, .boundaryFailed, hcalls⟩
      · rw [hres] at hcalls
        cases status with
        | pending => exact ⟨_, .boundaryPending, hcalls⟩
        | complete =>
          dsimp only
          rcases nextGeneration_spec (s := s) with hg | ⟨hg, hmax⟩
          · rw [hg]
            exact ⟨_, .boundaryRecovered, hcalls⟩
          · rw [hg]
            exact ⟨_, .boundaryExhausted hmax, hcalls⟩
  | offline => exact ⟨_, .offline, .none⟩

/-- Every poll is one of the listed turns, whatever the outside answers. -/
theorem poll_spec (s : ResourceExecutor) (w : ω) (now : ℕ) : ∃ calls,
    Polled s now calls (s.pollAuthorized B w now).1.1 (s.pollAuthorized B w now).1.2 ∧
      Calls B w (s.pollAuthorized B w now).2 calls := by
  unfold pollAuthorized
  split_ifs with hback
  · exact ⟨_, .backwards hback, .none⟩
  · dsimp only
    cases hevents : s.events with
    | cons event rest => exact ⟨_, .popped (not_lt.1 hback) hevents, .none⟩
    | nil =>
      let drained : ResourceExecutor := { s with lastPoll := now, state := .idle }
      obtain ⟨calls, hprogress, hcalls⟩ : ∃ calls, Progress drained now s.state calls (progress B drained w s.state now).1 ∧
          Calls B w (progress B drained w s.state now).2 calls := progress_spec s.state
      dsimp only
      rw [← hevents]
      rcases hres : progress B { s with lastPoll := now, state := .idle } w s.state now with ⟨⟨e | state, s'⟩, w1⟩
      · rw [hres] at hprogress hcalls
        exact ⟨_, .failed (not_lt.1 hback) hevents hprogress, hcalls⟩
      · rw [hres] at hprogress hcalls
        have hpolled : Polled s now calls (.ok s'.events.head?)
            { s' with state := state, events := s'.events.tail } :=
          .progressed (not_lt.1 hback) hevents hprogress
        exact ⟨_, hpolled, hcalls⟩

end ResourceExecutor
end LabRuntime
