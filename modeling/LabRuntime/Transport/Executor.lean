import LabRuntime.Output.Basic

/-! Bounded, single-owner execution of byte transactions. One executor owns one byte adapter and
serializes every instrument that shares it. The outside of an executor, its adapter and the
authorizer its owner passes to a poll, is one world that answers calls. -/

namespace LabRuntime

def maxTransactionBytes : ℕ := 64
def maxQueuedTransactions : ℕ := 32
def maxTransactionDuration : ℕ := fromSecs 60

inductive TransportIoError
  | disconnected | other
  deriving DecidableEq, Repr

inductive RecoveryStatus
  | pending | complete
  deriving DecidableEq, Repr

inductive TransportShutdown
  | pending | complete
  deriving DecidableEq, Repr

inductive TransactionOutcome
  | completed | queueExpired | failed
  deriving DecidableEq, Repr

/-- Latest transaction record; `started` says that a request byte was accepted before the result. -/
structure TransactionRecord where
  id : ℕ
  outcome : TransactionOutcome
  started : Bool
  generation : ℕ
  bindingGeneration : ℕ
  mappingRevision : ℕ
  deriving DecidableEq, Repr

inductive ExecutorState
  | idle | inFlight | recovering | offline
  deriving DecidableEq, Repr

structure ExecutorSnapshot where
  state : ExecutorState
  queueLen : ℕ
  active : Option ℕ
  generation : ℕ
  latest : Option TransactionRecord
  deriving DecidableEq, Repr

structure OutputTransaction where
  intent : OutputIntent
  dispatch : Option DispatchId
  deriving Repr

inductive TransactionKind
  | read
  | output (output : OutputTransaction)
  deriving Repr

def TransactionKind.intent : TransactionKind → Option OutputIntent
  | .output transaction => some transaction.intent
  | .read => none

structure Transaction where
  id : ℕ
  request : List UInt8
  expectedResponse : ℕ
  queueDeadline : ℕ
  timeout : ℕ
  retryable : Bool
  retries : ℕ
  bindingGeneration : ℕ
  mappingRevision : ℕ
  kind : TransactionKind
  deriving Repr

structure Active where
  transaction : Transaction
  writeOffset : ℕ
  response : List UInt8
  executionDeadline : ℕ
  deriving Repr

structure Recovery where
  transaction : Transaction
  started : Bool
  deadline : ℕ
  deriving Repr

inductive OwnedState
  | idle
  | active (active : Active)
  | recovering (recovery : Recovery)
  | protocolRecovery (deadline : ℕ)
  | offline
  deriving Repr

inductive AuthorizationStep
  | validate | started
  deriving DecidableEq, Repr

inductive TransportEvent
  | readUnavailable (id bindingGeneration mappingRevision : ℕ)
  | readFenced (id : ℕ)
  | readTerminal (record : TransactionRecord) (response : Option (List UInt8))
  | outputUncertain (id : ℕ) (intent : OutputIntent) (dispatch : DispatchId)
  | outputTerminal (intent : OutputIntent) (dispatch : Option DispatchId) (record : TransactionRecord)
      (response : Option (List UInt8))
  | boundaryRecovered
  | boundaryFailed
  deriving Repr

/-- The states in which no ordinary transaction is admitted. -/
def OwnedState.unavailable : OwnedState → Bool
  | .recovering _ | .protocolRecovery _ | .offline => true
  | _ => false

/-- Sole owner and serializer of one byte resource; the adapter it drives is in the world. -/
structure ResourceExecutor where
  id : ResourceId
  queue : List Transaction
  safeQueue : Option Transaction
  state : OwnedState
  recoveryTimeout : ℕ
  generation : ℕ
  nextTransaction : ℕ
  lastPoll : ℕ
  latest : Option TransactionRecord
  latestResponse : Option (List UInt8)
  events : List TransportEvent
  closed : Bool
  deriving Repr

/-- What a write offers: the rest of a request from an offset. An adapter sees the bytes alone. -/
structure Offer where
  id : ℕ
  offset : ℕ
  bytes : List UInt8
  deriving DecidableEq, Repr

namespace Active

/-- The part of the request that is not accepted yet. -/
def remaining (a : Active) : List UInt8 := a.transaction.request.drop a.writeOffset

def offer (a : Active) : Offer :=
  { id := a.transaction.id, offset := a.writeOffset, bytes := a.remaining }

/-- How many response bytes are still missing. -/
def missing (a : Active) : ℕ := a.transaction.expectedResponse - a.response.length

def sent (a : Active) : Prop := a.writeOffset = a.transaction.request.length

instance (a : Active) : Decidable a.sent := inferInstanceAs (Decidable (_ = _))

end Active

/-- The outside of an executor: the byte adapter it owns and the authorizer a poll is given. -/
structure Boundary (ω : Type) where
  tryWrite : ω → Offer → Except TransportIoError ℕ × ω
  tryRead : ω → ℕ → (length : ℕ) → Except TransportIoError ℕ × Vector UInt8 length × ω
  tryRecover : ω → Except TransportIoError RecoveryStatus × ω
  tryShutdown : ω → TransportShutdown × ω
  authorize : ω → OutputIntent → AuthorizationStep → Except Unit (Option DispatchId) × ω

/-- The `ByteTransport` trait over an adapter's own state. -/
structure ByteTransport (σ : Type) where
  tryWrite : σ → List UInt8 → Except TransportIoError ℕ × σ
  tryRead : σ → (length : ℕ) → Except TransportIoError ℕ × Vector UInt8 length × σ
  tryRecover : σ → Except TransportIoError RecoveryStatus × σ
  tryShutdown : σ → TransportShutdown × σ

/-- An adapter beside an authorizer with its own environment. -/
def ByteTransport.boundary {σ ρ : Type} (A : ByteTransport σ)
    (authorizer : ρ → OutputIntent → AuthorizationStep → Except Unit (Option DispatchId) × ρ) :
    Boundary (σ × ρ) where
  tryWrite := fun (a, r) offer => let (result, a) := A.tryWrite a offer.bytes; (result, a, r)
  tryRead := fun (a, r) _ length =>
    let (result, buffer, a) := A.tryRead a length; (result, buffer, a, r)
  tryRecover := fun (a, r) => let (result, a) := A.tryRecover a; (result, a, r)
  tryShutdown := fun (a, r) => let (result, a) := A.tryShutdown a; (result, a, r)
  authorize := fun (a, r) intent step => let (result, r) := authorizer r intent step; (result, a, r)

namespace ResourceExecutor

/-- A poll's next owner state, or the error that leaves the owner idle. -/
abbrev Turn := Except TransportError OwnedState × ResourceExecutor

/-! ### Construction and admission -/

def withRecoveryTimeout (id : ResourceId) (recoveryTimeout : ℕ) : Except TransportError ResourceExecutor :=
  if recoveryTimeout = 0 ∨ recoveryTimeout > maxTransactionDuration then .error .invalidTransaction
  else .ok
    { id := id, queue := [], safeQueue := none, state := .idle, recoveryTimeout := recoveryTimeout,
      generation := 1, nextTransaction := 1, lastPoll := 0, latest := none, latestResponse := none,
      events := [], closed := false }

/-- The executor that takes over a closed resource under the next generation. -/
def replacement (id : ResourceId) (recoveryTimeout generation : ℕ) :
    Except TransportError ResourceExecutor :=
  if generation = 0 then .error .counterExhausted
  else match withRecoveryTimeout id recoveryTimeout with
  | .error error => .error error
  | .ok s => .ok { s with generation := generation }

/-- The transaction `enqueueRead` admits. -/
def readTransaction (id : ℕ) (request : List UInt8) (expectedResponse queueDeadline timeout : ℕ)
    (retryable : Bool) (bindingGeneration mappingRevision : ℕ) : Transaction :=
  { id := id, request := request, expectedResponse := expectedResponse, queueDeadline := queueDeadline,
    timeout := timeout, retryable := retryable, retries := 0, bindingGeneration := bindingGeneration,
    mappingRevision := mappingRevision, kind := .read }

/-- The transaction `enqueueOutput` admits; an output is never retried. -/
def outputTransaction (id : ℕ) (request : List UInt8) (expectedResponse queueDeadline timeout : ℕ)
    (intent : OutputIntent) : Transaction :=
  { id := id, request := request, expectedResponse := expectedResponse, queueDeadline := queueDeadline,
    timeout := timeout, retryable := false, retries := 0, bindingGeneration := intent.bindingGeneration,
    mappingRevision := intent.mappingRevision, kind := .output { intent := intent, dispatch := none } }

/-- The byte and time bounds every admitted transaction meets. -/
def boundsViolated (request : List UInt8) (expectedResponse queuedAt queueDeadline timeout : ℕ) : Bool :=
  request.isEmpty || decide (request.length > maxTransactionBytes) ||
    !decide (1 ≤ expectedResponse ∧ expectedResponse ≤ maxTransactionBytes) ||
    decide (queueDeadline ≤ queuedAt) || decide (queueDeadline - queuedAt > maxTransactionDuration) ||
    decide (timeout = 0) || decide (timeout > maxTransactionDuration)

def enqueueRead (s : ResourceExecutor) (request : List UInt8)
    (expectedResponse queuedAt queueDeadline timeout : ℕ) (retryable : Bool)
    (bindingGeneration mappingRevision : ℕ) : Except TransportError ℕ × ResourceExecutor :=
  if s.closed || s.state.unavailable then (.error .resourceUnavailable, s)
  else if s.queue.length ≥ maxQueuedTransactions then (.error .queueFull, s)
  else if boundsViolated request expectedResponse queuedAt queueDeadline timeout ∨
      bindingGeneration = 0 ∨ mappingRevision = 0 then (.error .invalidTransaction, s)
  else match checkedAdd s.nextTransaction 1 with
  | none => (.error .counterExhausted, s)
  | some following =>
    let transaction := readTransaction s.nextTransaction request expectedResponse queueDeadline timeout
      retryable bindingGeneration mappingRevision
    (.ok s.nextTransaction, { s with nextTransaction := following, queue := s.queue ++ [transaction] })

def enqueueOutput (s : ResourceExecutor) (request : List UInt8)
    (expectedResponse queuedAt queueDeadline timeout : ℕ) (intent : OutputIntent) :
    Except TransportError ℕ × ResourceExecutor :=
  if s.closed || (!intent.safe && s.state.unavailable) then (.error .resourceUnavailable, s)
  else if (!intent.safe && decide (s.queue.length ≥ maxQueuedTransactions)) ||
      (intent.safe && s.safeQueue.isSome) then (.error .queueFull, s)
  else if boundsViolated request expectedResponse queuedAt queueDeadline timeout then
    (.error .invalidTransaction, s)
  else match checkedAdd s.nextTransaction 1 with
  | none => (.error .counterExhausted, s)
  | some following =>
    let transaction := outputTransaction s.nextTransaction request expectedResponse queueDeadline timeout intent
    if intent.safe then
      (.ok s.nextTransaction, { s with nextTransaction := following, safeQueue := some transaction })
    else
      (.ok s.nextTransaction, { s with nextTransaction := following, queue := s.queue ++ [transaction] })

/-- Cancel one output that is still queued and has admitted no physical byte. -/
def cancelQueuedOutput (s : ResourceExecutor) (id : ℕ) : Option OutputIntent × ResourceExecutor :=
  match s.safeQueue.filter (fun queued => queued.id == id) with
  | some queued => (queued.kind.intent, { s with safeQueue := none })
  | none => match s.queue.find? (fun queued => queued.id == id) with
    | none => (none, s)
    | some queued =>
      (queued.kind.intent,
        { s with queue := s.queue.eraseP (fun queued => queued.id == id) })

/-! ### Terminal events -/

def terminalRecord (s : ResourceExecutor) (transaction : Transaction) (outcome : TransactionOutcome)
    (started : Bool) : TransactionRecord :=
  { id := transaction.id, outcome := outcome, started := started, generation := s.generation,
    bindingGeneration := transaction.bindingGeneration, mappingRevision := transaction.mappingRevision }

def terminalEvent (transaction : Transaction) (record : TransactionRecord) (response : Option (List UInt8)) :
    TransportEvent :=
  match transaction.kind with
  | .read => .readTerminal record response
  | .output output => .outputTerminal output.intent output.dispatch record response

def finish (s : ResourceExecutor) (transaction : Transaction) (outcome : TransactionOutcome)
    (started : Bool) (response : Option (List UInt8)) : ResourceExecutor :=
  let record := s.terminalRecord transaction outcome started
  { s with
    latest := some record
    latestResponse := response
    events := s.events ++ [terminalEvent transaction record response] }

/-- The event that ends a transaction that never became active. -/
def fencedEvent (s : ResourceExecutor) (transaction : Transaction) : TransportEvent :=
  match transaction.kind with
  | .read => .readFenced transaction.id
  | .output output =>
    .outputTerminal output.intent output.dispatch (s.terminalRecord transaction .failed false) none

def fenceQueuedTransaction (s : ResourceExecutor) (transaction : Transaction) : ResourceExecutor :=
  { s with events := s.events ++ [s.fencedEvent transaction] }

/-- The loop that pops the ordinary queue and fences what it pops. -/
def fenceOrdinaryQueue (s : ResourceExecutor) : ResourceExecutor :=
  s.queue.foldl fenceQueuedTransaction { s with queue := [] }

/-! ### One poll -/

/-- What is reported at once when the boundary of an active transaction is lost. -/
def lostEvents (active : Active) : List TransportEvent :=
  match active.transaction.kind with
  | .read =>
    [.readUnavailable active.transaction.id active.transaction.bindingGeneration
      active.transaction.mappingRevision]
  | .output output => match output.dispatch with
    | some dispatch => [.outputUncertain active.transaction.id output.intent dispatch]
    | none => []

def enterRecovery (s : ResourceExecutor) (active : Active) (now : ℕ) : Turn :=
  let s := { s with events := s.events ++ lostEvents active }
  let s := s.fenceOrdinaryQueue
  match durationAdd now s.recoveryTimeout with
  | none => (.error .invalidTransaction, s)
  | some deadline =>
    (.ok (.recovering
      { transaction := active.transaction, started := decide (active.writeOffset > 0), deadline := deadline }), s)

def enterProtocolRecovery (s : ResourceExecutor) (active : Active) (now : ℕ) : Turn :=
  let s := (s.finish active.transaction .failed (decide (active.writeOffset > 0)) none).fenceOrdinaryQueue
  match durationAdd now s.recoveryTimeout with
  | none => (.error .invalidTransaction, s)
  | some deadline => (.ok (.protocolRecovery deadline), s)

/-- Account for `count` accepted bytes; the first byte of an output must be admitted as started. -/
def acceptBytes {ω : Type} (B : Boundary ω) (s : ResourceExecutor) (w : ω) (active : Active)
    (count now : ℕ) : (Turn ⊕ Active) × ω :=
  let advanced : Active := { active with writeOffset := active.writeOffset + count }
  if active.writeOffset = 0 ∧ count > 0 then
    match active.transaction.kind with
    | .read => (.inr advanced, w)
    | .output output => match B.authorize w output.intent .started with
      | (.ok (some id), w) =>
        let started := { active.transaction with kind := .output { output with dispatch := some id } }
        (.inr { advanced with transaction := started }, w)
      | (_, w) => (.inl (s.enterRecovery active now), w)
  else (.inr advanced, w)

/-- One write attempt with the rest of the request. -/
def offerRequest {ω : Type} (B : Boundary ω) (s : ResourceExecutor) (w : ω) (active : Active) (now : ℕ) :
    (Turn ⊕ Active) × ω :=
  match B.tryWrite w active.offer with
  | (.ok count, w) =>
    if count ≤ active.remaining.length then s.acceptBytes B w active count now
    else (.inl (s.enterRecovery active now), w)
  | (.error _, w) => (.inl (s.enterRecovery active now), w)

/-- The write phase: an output with nothing accepted yet passes the final validation first. -/
def writeRequest {ω : Type} (B : Boundary ω) (s : ResourceExecutor) (w : ω) (active : Active) (now : ℕ) :
    (Turn ⊕ Active) × ω :=
  if active.writeOffset = 0 then match active.transaction.kind with
    | .read => s.offerRequest B w active now
    | .output output => match B.authorize w output.intent .validate with
      | (.ok _, w) => s.offerRequest B w active now
      | (.error _, w) => (.inl (.ok .idle, s.finish active.transaction .failed false none), w)
  else s.offerRequest B w active now

/-- Read once when the request is written; one guard byte detects trailing input. -/
def readResponse {ω : Type} (B : Boundary ω) (s : ResourceExecutor) (w : ω) (active : Active) (now : ℕ) :
    Turn × ω :=
  if active.sent then
    match B.tryRead w active.transaction.id (active.missing + 1) with
    | (.ok count, buffer, w) =>
      if count ≤ active.missing then
        let response := active.response ++ buffer.toList.take count
        if response.length = active.transaction.expectedResponse then
          ((.ok .idle, s.finish active.transaction .completed (decide (active.writeOffset > 0)) (some response)), w)
        else ((.ok (.active { active with response := response }), s), w)
      else (s.enterProtocolRecovery active now, w)
    | (.error _, _, w) => (s.enterRecovery active now, w)
  else ((.ok (.active active), s), w)

def progressActive {ω : Type} (B : Boundary ω) (s : ResourceExecutor) (w : ω) (active : Active) (now : ℕ) :
    Turn × ω :=
  if now ≥ active.executionDeadline then (s.enterRecovery active now, w)
  else if active.writeOffset < active.transaction.request.length then
    match s.writeRequest B w active now with
    | (.inl turn, w) => (turn, w)
    | (.inr active, w) => s.readResponse B w active now
  else s.readResponse B w active now

/-- The next transaction to run, the safe slot first. -/
def takeNext (s : ResourceExecutor) : Option Transaction × ResourceExecutor :=
  match s.safeQueue, s.queue with
  | some transaction, _ => (some transaction, { s with safeQueue := none })
  | none, transaction :: rest => (some transaction, { s with queue := rest })
  | none, [] => (none, s)

def startOrRemainIdle {ω : Type} (B : Boundary ω) (s : ResourceExecutor) (w : ω) (now : ℕ) : Turn × ω :=
  match s.takeNext with
  | (none, s) => ((.ok .idle, s), w)
  | (some transaction, s) =>
    if now ≥ transaction.queueDeadline then
      ((.ok .idle, s.finish transaction .queueExpired false none), w)
    else match durationAdd now transaction.timeout with
    | none => ((.error .invalidTransaction, s), w)
    | some deadline =>
      s.progressActive B w
        { transaction := transaction, writeOffset := 0, response := [],
          executionDeadline := min deadline transaction.queueDeadline } now

/-- A recovered executor serves under the next generation. -/
def nextGeneration (s : ResourceExecutor) : Except TransportError ResourceExecutor :=
  match checkedAdd s.generation 1 with
  | none => .error .counterExhausted
  | some generation => .ok { s with generation := generation }

def progressRecovery {ω : Type} (B : Boundary ω) (s : ResourceExecutor) (w : ω) (recovery : Recovery)
    (now : ℕ) : Turn × ω :=
  let fail (s : ResourceExecutor) := s.finish recovery.transaction .failed recovery.started none
  if now ≥ recovery.deadline then ((.ok .offline, fail s), w)
  else match B.tryRecover w with
  | (.ok .pending, w) => ((.ok (.recovering recovery), s), w)
  | (.ok .complete, w) => match s.nextGeneration with
    | .error error => ((.error error, s), w)
    | .ok s =>
      if recovery.transaction.retryable ∧ recovery.transaction.retries = 0 ∧
          now < recovery.transaction.queueDeadline then
        ((.ok .idle, { s with queue := { recovery.transaction with retries := 1 } :: s.queue }), w)
      else ((.ok .idle, fail s), w)
  | (.error _, w) => ((.ok .offline, fail s), w)

def progressProtocolRecovery {ω : Type} (B : Boundary ω) (s : ResourceExecutor) (w : ω) (deadline now : ℕ) :
    Turn × ω :=
  if now ≥ deadline then ((.ok .offline, { s with events := s.events ++ [.boundaryFailed] }), w)
  else match B.tryRecover w with
  | (.ok .pending, w) => ((.ok (.protocolRecovery deadline), s), w)
  | (.ok .complete, w) => match s.nextGeneration with
    | .error error => ((.error error, s), w)
    | .ok s => ((.ok .idle, { s with events := s.events ++ [.boundaryRecovered] }), w)
  | (.error _, w) => ((.ok .offline, { s with events := s.events ++ [.boundaryFailed] }), w)

def takeEvent (s : ResourceExecutor) : Option TransportEvent × ResourceExecutor :=
  (s.events.head?, { s with events := s.events.tail })

/-- The owner state's own progress, with the state field already taken out of `s`. -/
def progress {ω : Type} (B : Boundary ω) (s : ResourceExecutor) (w : ω) (state : OwnedState) (now : ℕ) :
    Turn × ω :=
  match state with
  | .idle => s.startOrRemainIdle B w now
  | .active active => s.progressActive B w active now
  | .recovering recovery => s.progressRecovery B w recovery now
  | .protocolRecovery deadline => s.progressProtocolRecovery B w deadline now
  | .offline => ((.ok .offline, s), w)

/-- One bounded turn. The state is replaced by idle first, so an error leaves the owner idle. -/
def pollAuthorized {ω : Type} (B : Boundary ω) (s : ResourceExecutor) (w : ω) (now : ℕ) :
    (Except TransportError (Option TransportEvent) × ResourceExecutor) × ω :=
  if now < s.lastPoll then ((.error .invalidTime, s), w)
  else
    let s := { s with lastPoll := now }
    match s.events with
    | event :: rest => ((.ok (some event), { s with events := rest }), w)
    | [] => match progress B { s with state := .idle } w s.state now with
      | ((.error error, s), w) => ((.error error, s), w)
      | ((.ok state, s), w) =>
        let (event, s) := takeEvent { s with state := state }
        ((.ok event, s), w)

/-- Fence the transaction of the safe slot. -/
def fenceSafeQueue (s : ResourceExecutor) : ResourceExecutor :=
  match s.safeQueue with
  | some transaction => fenceQueuedTransaction { s with safeQueue := none } transaction
  | none => s

/-- Take the owner state offline and end the transaction it holds. -/
def retire (s : ResourceExecutor) : ResourceExecutor :=
  match s.state with
  | .active active =>
    finish { s with state := .offline } active.transaction .failed (decide (active.writeOffset > 0)) none
  | .recovering recovery =>
    finish { s with state := .offline } recovery.transaction .failed recovery.started none
  | _ => { s with state := .offline }

/-- Fence owned work and make one retirement attempt; accepted bytes keep their evidence. -/
def tryShutdown {ω : Type} (B : Boundary ω) (s : ResourceExecutor) (w : ω) :
    (TransportShutdown × ResourceExecutor) × ω :=
  let s := s.fenceOrdinaryQueue.fenceSafeQueue
  if s.closed then ((.complete, s), w)
  else
    let (status, w) := B.tryShutdown w
    ((status, { s.retire with closed := s.closed || decide (status = .complete) }), w)

/-- Require a clean adapter generation after protocol-level response rejection. -/
def protocolFailure (s : ResourceExecutor) : Except TransportError Unit × ResourceExecutor :=
  match s.state with
  | .idle => match durationAdd s.lastPoll s.recoveryTimeout with
    | none => (.error .invalidTransaction, s)
    | some deadline => (.ok (), { s.fenceOrdinaryQueue with state := .protocolRecovery deadline })
  | _ => (.ok (), s)

/-! ### Inspection -/

/-- Whether a retained output has crossed, or may have crossed, the first-positive-byte boundary. -/
def outputMayHaveStarted (s : ResourceExecutor) (id : ℕ) : Bool :=
  (match s.state with
    | .active active => decide (active.transaction.id = id) && decide (active.writeOffset > 0)
    | .recovering recovery => decide (recovery.transaction.id = id) && recovery.started
    | _ => false) ||
  s.events.any (fun event => match event with
    | .outputUncertain eventId _ _ => decide (eventId = id)
    | .outputTerminal _ _ record _ => decide (record.id = id) && record.started
    | _ => false) ||
  s.latest.any (fun record => decide (record.id = id) && record.started)

def snapshot (s : ResourceExecutor) : ExecutorSnapshot :=
  let (state, active) : ExecutorState × Option ℕ := match s.state with
    | .idle => (.idle, none)
    | .active active => (.inFlight, some active.transaction.id)
    | .recovering recovery => (.recovering, some recovery.transaction.id)
    | .protocolRecovery _ => (.recovering, none)
    | .offline => (.offline, none)
  { state := state, queueLen := s.queue.length + s.safeQueue.toList.length, active := active,
    generation := s.generation, latest := s.latest }

end ResourceExecutor
end LabRuntime
