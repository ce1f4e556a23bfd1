import LabRuntime.Transport.Executor
import LabRuntime.Lib.History

/-! One serial session: the transport of the Runtime owner and the worker that owns the blocking
device, over a one-slot request channel, a one-slot completion channel and a stop flag. A step of
either side makes at most one access to what they share, so a run of steps is an interleaving. -/

namespace LabRuntime.Com

def reconnectOpenMaxAttempts : ℕ := 64
def maxInternalReadBytes : ℕ := maxTransactionBytes + 1
def reconnectOpenRetryInterval : ℕ := fromMillis 100

inductive SerialError
  | invalidSettings | disconnected | timeout | other
  deriving DecidableEq, Repr

inductive ComState
  | opening | online | offline | closing | closed
  deriving DecidableEq, Repr

inductive ComOpenStatus
  | opening | ready
  | failed (error : SerialError)
  deriving DecidableEq, Repr

structure OpenRetryPolicy where
  deadline : ℕ
  retryInterval : ℕ
  maxAttempts : ℕ
  deriving DecidableEq, Repr

namespace OpenRetryPolicy

def singleAttempt (now : ℕ) : OpenRetryPolicy := ⟨now, 0, 1⟩

def transientUntil (deadline : ℕ) : OpenRetryPolicy := ⟨deadline, reconnectOpenRetryInterval, reconnectOpenMaxAttempts⟩

def shouldRetry (p : OpenRetryPolicy) (error : SerialError) (attempt now : ℕ) : Bool :=
  error = .disconnected && attempt < p.maxAttempts && now < p.deadline

end OpenRetryPolicy

inductive Request
  | write (bytes : List UInt8)
  | read (maximum : ℕ)
  | stop
  deriving DecidableEq, Repr

inductive Completion
  | opened | written
  | read (bytes : List UInt8)
  | failed (error : SerialError)
  | stopped
  deriving DecidableEq, Repr

/-- A nonblocking receive from the completion channel. -/
inductive TryRecv
  | completion (c : Completion)
  | empty | disconnected
  deriving DecidableEq, Repr

/-- A nonblocking send to the request channel. -/
inductive TrySend
  | ok | full | disconnected
  deriving DecidableEq, Repr

/-! ### The parties -/

/-- The owner's view. -/
structure ComTransport where
  pending : Bool := false
  received : List UInt8 := []
  state : ComState := .opening
  fault : Option SerialError := none
  cleanBoundary : Bool := false
  openConfirmed : Bool := false
  /-- the join handle was taken -/
  joined : Bool := false
  deriving DecidableEq, Repr

namespace ComTransport

/-- The match on a received completion in `drain_completion`. -/
def settle (o : ComTransport) : TryRecv → ComTransport
  | .completion .opened =>
    if o.state ≠ .closing then { o with openConfirmed := true, state := .online } else { o with openConfirmed := true }
  | .completion .written => { o with pending := false }
  | .completion (.read bytes) =>
    if o.state ≠ .closing then
      { o with pending := false, received := o.received ++ bytes.take maxInternalReadBytes }
    else { o with pending := false }
  | .completion (.failed error) =>
    if o.state ≠ .closing then { o with pending := false, fault := some error, state := .offline }
    else { o with pending := false, fault := some error }
  | .completion .stopped => { o with pending := false, state := .closed }
  | .empty => o
  | .disconnected =>
    if o.state = .closing ∨ o.state = .closed then o
    else { o with pending := false, fault := o.fault <|> some .disconnected, state := .offline }

def transportError (o : ComTransport) : TransportIoError :=
  match o.fault with
  | some .disconnected => .disconnected
  | _ => .other

/-- `open_status` after its drain. -/
def openStatus (o : ComTransport) : ComOpenStatus :=
  match o.state with
  | .online => if o.openConfirmed then .ready else .opening
  | .opening => .opening
  | .offline | .closing | .closed => .failed (o.fault.getD .other)

end ComTransport

/-- Where the worker stands, before the access named. -/
inductive Phase
  /-- the stop flag, at the head of the open loop -/
  | looking
  /-- the device factory -/
  | attempting
  /-- the stop flag and the clock, in `wait_for_open_retry` -/
  | waiting (error : SerialError) (retryAt : ℕ)
  /-- the stop flag, with a device -/
  | opened
  /-- the send of `Opened` -/
  | reporting
  /-- the stop flag, at the head of `worker_request_loop` -/
  | entering
  /-- the receive of a request -/
  | receiving
  /-- the stop flag, with a request -/
  | taken (request : Request)
  /-- the request, which passed the stop flag -/
  | checked (request : Request)
  /-- a write call of `write_same_frame` -/
  | writing (bytes : List UInt8) (offset : ℕ)
  /-- the read call -/
  | reading (maximum : ℕ)
  /-- the send of the completion of a request -/
  | answering (completion : Completion)
  /-- the stop flag, after a completion -/
  | answered
  /-- the send of the last completion -/
  | announcing (completion : Completion)
  /-- what the worker owns is dropped -/
  | returning
  /-- the thread has ended -/
  | finished
  deriving DecidableEq, Repr

structure Worker where
  phase : Phase := .looking
  /-- a device is owned -/
  device : Bool := false
  /-- the receiver of requests is owned -/
  requestsHeld : Bool := true
  /-- the sender of completions is owned -/
  completionsHeld : Bool := true
  openAttempts : ℕ := 0
  lastOpenError : Option SerialError := none
  deriving DecidableEq, Repr

/-! ### Calls and what happens in a run -/

/-- What is copied of a session, without its settings. -/
structure ComSnapshot where
  state : ComState
  lastError : Option SerialError
  requestPending : Bool
  workerFinished : Bool
  osPortOpenConfirmed : Bool
  openAttempts : ℕ
  lastOpenError : Option SerialError
  stopRequested : Bool
  deriving DecidableEq, Repr

/-- The public calls on the transport, with `drop`. -/
inductive Call
  | tryWrite (bytes : List UInt8)
  | tryRead (length : ℕ)
  | tryRecover
  | openStatus
  | snapshot
  | retire
  | tryShutdown
  | drop
  deriving DecidableEq, Repr

inductive Answer
  | wrote (result : Except TransportIoError ℕ)
  | read (result : Except TransportIoError (List UInt8))
  | recovered (result : Except TransportIoError RecoveryStatus)
  | status (result : ComOpenStatus)
  | snapshot (result : ComSnapshot)
  | shutdown (result : TransportShutdown)
  | done
  deriving DecidableEq, Repr

/-- Where the owner stands in a call, before the access named. -/
inductive Stand
  /-- between calls -/
  | home
  /-- the store of the stop flag in `retire` -/
  | retiring (call : Call)
  /-- the wake-up hint of `retire` -/
  | hinting (call : Call)
  /-- the receive of `drain_completion` -/
  | draining (call : Call)
  /-- the look at the join handle in `drain_completion` -/
  | noticing (call : Call)
  /-- the rest of the call -/
  | concluding (call : Call)
  deriving DecidableEq, Repr

inductive Happening
  | returned (call : Call) (answer : Answer)
  /-- a data request met a full channel -/
  | refused (request : Request)
  | stopRequested
  /-- a data request passed the stop flag -/
  | passed (request : Request)
  /-- a data request starts on the device -/
  | began (request : Request)
  | wroteOnce (offered : List UInt8) (result : Except SerialError ℕ)
  | readOnce (maximum : ℕ) (result : Except SerialError (List UInt8))
  /-- a call of the device did not return -/
  | panicked
  deriving DecidableEq, Repr

/-- `gone` says that the transport was dropped; `trace` is what happened so far. -/
structure Session where
  retry : OpenRetryPolicy
  owner : ComTransport := {}
  stand : Stand := .home
  gone : Bool := false
  stop : Bool := false
  requests : Option Request := none
  completions : Option Completion := none
  worker : Worker := {}
  trace : List Happening := []
  deriving DecidableEq, Repr

namespace Session

def spawned (retry : OpenRetryPolicy) : Session := { retry }

def note (s : Session) (h : Happening) : Session := { s with trace := s.trace ++ [h] }

/-! ### The owner -/

def requestStop (s : Session) : Session := { s.note .stopRequested with stop := true }

def trySend (s : Session) (request : Request) : TrySend × Session :=
  if !s.worker.requestsHeld then (.disconnected, s)
  else if s.requests.isSome then (.full, s)
  else (.ok, { s with requests := some request })

/-- The first half of `drain_completion`. -/
def receive (s : Session) : Session :=
  match s.completions with
  | some c => { s with completions := none, owner := s.owner.settle (.completion c) }
  | none => { s with owner := s.owner.settle (if s.worker.completionsHeld then .empty else .disconnected) }

def workerFinished (s : Session) : Bool := !s.owner.joined && s.worker.phase = .finished

/-- The second half of `drain_completion`. -/
def noticeFinished (s : Session) : Session :=
  if s.owner.state = .closing ∧ s.workerFinished = true then
    { s with owner := { s.owner with pending := false, state := .closed } }
  else s

/-- `retire` up to its hint. -/
def fence (s : Session) : Session :=
  let s := s.requestStop
  if s.owner.state = .closed then s
  else { s with owner := { s.owner with state := .closing, fault := some .disconnected } }

def tryWrite (s : Session) (bytes : List UInt8) : Except TransportIoError ℕ × Session :=
  if s.owner.state = .closing ∨ s.owner.state = .closed then (.error .disconnected, s)
  else if s.owner.fault.isSome then (.error s.owner.transportError, s)
  else if bytes = [] ∨ maxTransactionBytes < bytes.length then (.error .other, s)
  else if s.owner.state = .opening ∨ s.owner.pending then (.ok 0, s)
  else match s.trySend (.write bytes) with
    | (.ok, s) => (.ok bytes.length, { s with owner := { s.owner with pending := true } })
    | (.full, s) => (.ok 0, s.note (.refused (.write bytes)))
    | (.disconnected, s) => (.error .disconnected, s)

def tryRead (s : Session) (length : ℕ) : Except TransportIoError (List UInt8) × Session :=
  if s.owner.fault.isSome then (.error s.owner.transportError, s)
  else
    let copied := min length s.owner.received.length
    let bytes := s.owner.received.take copied
    let s := { s with owner := { s.owner with received := s.owner.received.drop copied } }
    if copied ≠ 0 ∨ length = 0 then (.ok bytes, s)
    else if s.owner.state ≠ .online ∨ s.owner.pending then (.ok [], s)
    else
      let request := Request.read (min length maxInternalReadBytes)
      match s.trySend request with
      | (.ok, s) => (.ok [], { s with owner := { s.owner with pending := true } })
      | (.full, s) => (.ok [], s.note (.refused request))
      | (.disconnected, s) => (.error .disconnected, s)

def tryRecover (s : Session) : Except TransportIoError RecoveryStatus × Session :=
  if s.owner.state = .closing ∨ s.owner.state = .closed then (.error .disconnected, s)
  else if s.owner.cleanBoundary ∧ ¬ s.owner.pending then
    (.ok .complete, { s with owner := { s.owner with cleanBoundary := false, fault := none, state := .online } })
  else (.ok .pending, s)

def snapshot (s : Session) : ComSnapshot :=
  { state := s.owner.state, lastError := s.owner.fault, requestPending := s.owner.pending
    workerFinished := s.owner.joined || s.worker.phase = .finished, osPortOpenConfirmed := s.owner.openConfirmed
    openAttempts := s.worker.openAttempts, lastOpenError := s.worker.lastOpenError, stopRequested := s.stop }

/-- A finished worker is joined. -/
def join (s : Session) : Session :=
  if s.workerFinished then { s with owner := { s.owner with joined := true } } else s

def tryShutdown (s : Session) : TransportShutdown × Session :=
  if s.owner.state ≠ .closed then (.pending, s) else (.complete, s.join)

/-- A call after its drain, if it has one. -/
def conclude (s : Session) : Call → Answer × Session
  | .tryWrite bytes => let (result, s) := s.tryWrite bytes; (.wrote result, s)
  | .tryRead length => let (result, s) := s.tryRead length; (.read result, s)
  | .tryRecover => let (result, s) := s.tryRecover; (.recovered result, s)
  | .openStatus => (.status s.owner.openStatus, s)
  | .snapshot => (.snapshot s.snapshot, s)
  | .retire => (.done, s)
  | .tryShutdown => let (result, s) := s.tryShutdown; (.shutdown result, s)
  | .drop => (.done, { s.join with gone := true, completions := none })

/-- A call starts with its retirement or with its drain; a snapshot has neither. -/
def begin (s : Session) (call : Call) : Session :=
  if s.stand = .home ∧ s.gone = false then
    match call with
    | .retire | .tryShutdown | .drop => { s with stand := .retiring call }
    | .snapshot => { s with stand := .concluding call }
    | _ => { s with stand := .draining call }
  else s

/-- After the retirement, `retire` itself is over. -/
def retired (s : Session) (call : Call) : Session :=
  if call = .retire then { s.note (.returned call .done) with stand := .home } else { s with stand := .draining call }

/-- The next access of the owner. -/
def advance (s : Session) : Session :=
  match s.stand with
  | .home => s
  | .retiring call =>
    if s.owner.state = .closed then s.fence.retired call else { s.fence with stand := .hinting call }
  | .hinting call => (s.trySend .stop).2.retired call
  | .draining call => { s.receive with stand := .noticing call }
  | .noticing call => { s.noticeFinished with stand := .concluding call }
  | .concluding call =>
    let (answer, s) := s.conclude call
    { s.note (.returned call answer) with stand := .home }

/-! ### The worker -/

def move (s : Session) (phase : Phase) : Session := { s with worker := { s.worker with phase } }

/-- The stop flag is looked at: the worker announces that it stops, or goes on. -/
def unlessStopped (s : Session) (next : Session) : Session := if s.stop then s.move (.announcing .stopped) else next

def put (s : Session) (c : Completion) : Session := { s with completions := some c }

/-- A blocking send: it waits for the slot, and fails when the owner's end is gone. -/
def send (s : Session) (c : Completion) (next : Phase) : Session :=
  if s.gone then s.move .returning
  else if s.completions.isSome then s
  else (s.move next).put c

/-- The loop of `write_same_frame`. -/
def frame (bytes : List UInt8) (offset : ℕ) : Phase :=
  if offset < bytes.length then .writing bytes offset else .answering .written

end Session

/-- A step of the worker's own code, or what a device call and the clock come back with. -/
inductive WorkerMove
  | step
  | attempted (result : Except SerialError Unit) (now later : ℕ)
  | waited (now : ℕ)
  | wrote (result : Except SerialError ℕ)
  | read (result : Except SerialError (List UInt8))
  | panicked
  | dropDevice
  | dropRequests
  | dropCompletions
  deriving DecidableEq, Repr

namespace Session

def work (s : Session) (m : WorkerMove) : Session :=
  match s.worker.phase, m with
  | .looking, .step => s.unlessStopped
      { s with worker := { s.worker with phase := .attempting, openAttempts := s.worker.openAttempts + 1 } }
  | .attempting, .attempted (.ok ()) _ _ => { s with worker := { s.worker with phase := .opened, device := true } }
  | .attempting, .attempted (.error error) now later =>
    let phase := if s.retry.shouldRetry error s.worker.openAttempts now then
        .waiting error (min (later + s.retry.retryInterval) s.retry.deadline)
      else .announcing (.failed error)
    { s with worker := { s.worker with phase, lastOpenError := some error } }
  | .waiting error retryAt, .waited now => s.unlessStopped <|
      if s.retry.deadline ≤ now then s.move (.announcing (.failed error))
      else if retryAt ≤ now then s.move .looking
      else s
  | .opened, .step => s.unlessStopped (s.move .reporting)
  | .reporting, .step => s.send .opened .entering
  | .entering, .step => s.unlessStopped (s.move .receiving)
  | .receiving, .step => match s.requests with
    | some request => { s.move (.taken request) with requests := none }
    | none => if s.gone then s.move .returning else s
  | .taken .stop, .step => s.unlessStopped (s.move (.checked .stop))
  | .taken request, .step => s.unlessStopped ((s.note (.passed request)).move (.checked request))
  | .checked .stop, .step => s.requestStop.move (.announcing .stopped)
  | .checked (.write bytes), .step => (s.note (.began (.write bytes))).move (frame bytes 0)
  | .checked (.read maximum), .step => (s.note (.began (.read maximum))).move (.reading maximum)
  | .writing bytes offset, .wrote result =>
    let s := s.note (.wroteOnce (bytes.drop offset) result)
    match result with
    | .error error => s.move (.answering (.failed error))
    | .ok written =>
      if written = 0 ∨ bytes.length - offset < written then s.move (.answering (.failed .timeout))
      else s.move (frame bytes (offset + written))
  | .reading maximum, .read result =>
    let s := s.note (.readOnce maximum result)
    match result with
    | .error error => s.move (.answering (.failed error))
    | .ok bytes => s.move (.answering (.read bytes))
  | .answering c, .step => s.send c .answered
  | .answered, .step => s.unlessStopped (s.move .receiving)
  | .announcing c, .step => s.send c .returning
  | .attempting, .panicked => s.move .returning
  | .writing _ _, .panicked => (s.note .panicked).move .returning
  | .reading _, .panicked => (s.note .panicked).move .returning
  | .returning, .dropDevice => { s with worker := { s.worker with device := false } }
  | .returning, .dropRequests => { s with requests := none, worker := { s.worker with requestsHeld := false } }
  | .returning, .dropCompletions => { s with worker := { s.worker with completionsHeld := false } }
  | .returning, .step =>
    if s.worker.device = false ∧ s.worker.requestsHeld = false ∧ s.worker.completionsHeld = false then s.move .finished
    else s
  | _, _ => s

end Session

/-- A call of the owner begins, the owner takes the next step of its call, or the worker moves. -/
inductive Event
  | call (call : Call)
  | owner
  | worker (move : WorkerMove)
  deriving DecidableEq, Repr

namespace Session

def step (s : Session) : Event → Session
  | .call call => s.begin call
  | .owner => s.advance
  | .worker move => s.work move

end Session

end LabRuntime.Com
