import LabRuntime.Lib.History
import LabRuntime.Transport.Turn

/-! Runs of one executor. Its owner admits, polls, cancels, rejects responses, retires and takes
events in any order; the run keeps what was admitted, cancelled, reported and called. -/

namespace LabRuntime

inductive ExecutorOp
  | enqueueRead (request : List UInt8) (expectedResponse queuedAt queueDeadline timeout : ℕ)
      (retryable : Bool) (bindingGeneration mappingRevision : ℕ)
  | enqueueOutput (request : List UInt8) (expectedResponse queuedAt queueDeadline timeout : ℕ)
      (intent : OutputIntent)
  | poll (now : ℕ)
  | protocolFailure
  | cancelQueuedOutput (id : ℕ)
  | tryShutdown
  | takeEvent

/-- One poll as the outside saw it. -/
structure PollRecord where
  time : ℕ
  calls : List WireEvent
  result : Except TransportError (Option TransportEvent)

/-- The transaction a terminal event ends. -/
def TransportEvent.terminalId : TransportEvent → Option ℕ
  | .readFenced id => some id
  | .readTerminal record _ => some record.id
  | .outputTerminal _ _ record _ => some record.id
  | _ => none

/-- The transactions ended by a list of events. -/
def terminals (events : List TransportEvent) : List ℕ := events.filterMap TransportEvent.terminalId

@[simp] theorem terminals_nil : terminals [] = [] := rfl

@[simp] theorem terminals_boundaryRecovered : terminals [.boundaryRecovered] = [] := rfl

@[simp] theorem terminals_boundaryFailed : terminals [.boundaryFailed] = [] := rfl

@[simp] theorem terminals_append (a b : List TransportEvent) :
    terminals (a ++ b) = terminals a ++ terminals b := List.filterMap_append

def OwnedState.transactions : OwnedState → List Transaction
  | .active served => [served.transaction]
  | .recovering recovery => [recovery.transaction]
  | _ => []

/-- A transaction as it was admitted, before any retry or dispatch. -/
def Transaction.origin (t : Transaction) : Transaction :=
  { t with
    retries := 0
    kind := match t.kind with
      | .read => .read
      | .output output => .output { output with dispatch := none } }

namespace ResourceExecutor

/-- Admitted and not active yet: the safe slot and the ordinary queue. -/
def waiting (s : ResourceExecutor) : List Transaction := s.safeQueue.toList ++ s.queue

/-- Queued, in the safe slot, active or recovering. -/
def owned (s : ResourceExecutor) : List Transaction := s.waiting ++ s.state.transactions

/-- The queued transaction that a cancellation removes. -/
def cancels (s : ResourceExecutor) (id : ℕ) : List ℕ :=
  if s.waiting.any (fun queued => queued.id == id) then [id] else []

/-- An executor, its outside, and the history of a run on it. -/
structure Owner (ω : Type) where
  executor : ResourceExecutor
  world : ω
  admitted : List Transaction
  cancelled : List ℕ
  taken : List TransportEvent
  polls : List PollRecord

namespace Owner

variable {ω : Type} (B : Boundary ω)

def enqueueRead (o : Owner ω) (request : List UInt8) (expectedResponse queuedAt queueDeadline timeout : ℕ)
    (retryable : Bool) (bindingGeneration mappingRevision : ℕ) : Owner ω :=
  let (result, s) := o.executor.enqueueRead request expectedResponse queuedAt queueDeadline timeout
    retryable bindingGeneration mappingRevision
  { o with
    executor := s
    admitted := o.admitted ++ result.toOption.toList.map fun id =>
      readTransaction id request expectedResponse queueDeadline timeout retryable bindingGeneration mappingRevision }

def enqueueOutput (o : Owner ω) (request : List UInt8) (expectedResponse queuedAt queueDeadline timeout : ℕ)
    (intent : OutputIntent) : Owner ω :=
  let (result, s) := o.executor.enqueueOutput request expectedResponse queuedAt queueDeadline timeout intent
  { o with
    executor := s
    admitted := o.admitted ++ result.toOption.toList.map fun id =>
      outputTransaction id request expectedResponse queueDeadline timeout intent }

/-- A poll with the calls it makes kept beside the outside. -/
def poll (o : Owner ω) (now : ℕ) : Owner ω :=
  let ((result, s), (w, calls)) := o.executor.pollAuthorized B.recorded (o.world, []) now
  { o with
    executor := s
    world := w
    taken := o.taken ++ result.toOption.join.toList
    polls := o.polls ++ [{ time := now, calls := calls, result := result }] }

def step (o : Owner ω) (op : ExecutorOp) : Owner ω :=
  match op with
  | .enqueueRead request expectedResponse queuedAt queueDeadline timeout retryable generation revision =>
    o.enqueueRead request expectedResponse queuedAt queueDeadline timeout retryable generation revision
  | .enqueueOutput request expectedResponse queuedAt queueDeadline timeout intent =>
    o.enqueueOutput request expectedResponse queuedAt queueDeadline timeout intent
  | .poll now => o.poll B now
  | .protocolFailure => { o with executor := o.executor.protocolFailure.2 }
  | .cancelQueuedOutput id =>
    { o with
      executor := (o.executor.cancelQueuedOutput id).2
      cancelled := o.cancelled ++ o.executor.cancels id }
  | .tryShutdown =>
    let ((_, s), w) := o.executor.tryShutdown B o.world
    { o with executor := s, world := w }
  | .takeEvent =>
    let (event, s) := o.executor.takeEvent
    { o with executor := s, taken := o.taken ++ event.toList }

/-- An owner of a new executor, before any call. -/
def start (s : ResourceExecutor) (w : ω) : Owner ω :=
  { executor := s, world := w, admitted := [], cancelled := [], taken := [], polls := [] }

/-- The run of `ops` on a new executor. -/
def run (s : ResourceExecutor) (w : ω) (ops : List ExecutorOp) : Owner ω :=
  History.after (step B) (start s w) ops

/-- Every call made so far, in order. -/
def wire (o : Owner ω) : List WireEvent := o.polls.flatMap PollRecord.calls

end Owner

/-- An executor as it is made: nothing queued, nothing reported, every id still to come. -/
structure Fresh (s : ResourceExecutor) : Prop where
  queue : s.queue = []
  safeQueue : s.safeQueue = none
  state : s.state = .idle
  events : s.events = []

theorem withRecoveryTimeout_fresh {id : ResourceId} {timeout : ℕ} {s : ResourceExecutor}
    (h : withRecoveryTimeout id timeout = .ok s) : s.Fresh := by
  unfold withRecoveryTimeout at h
  split_ifs at h
  simp only [Except.ok.injEq] at h
  subst h
  exact ⟨rfl, rfl, rfl, rfl⟩

theorem replacement_fresh {id : ResourceId} {timeout generation : ℕ} {s : ResourceExecutor}
    (h : replacement id timeout generation = .ok s) : s.Fresh := by
  unfold replacement at h
  split_ifs at h
  cases hs : withRecoveryTimeout id timeout with
  | error e => rw [hs] at h; cases h
  | ok s' =>
    rw [hs] at h
    simp only [Except.ok.injEq] at h
    subst h
    obtain ⟨hq, hf, ht, he⟩ := withRecoveryTimeout_fresh hs
    exact ⟨hq, hf, ht, he⟩

/-- An executor of a new resource, or of a resource whose closed executor is replaced. -/
def Made (s : ResourceExecutor) : Prop :=
  ∃ id timeout, withRecoveryTimeout id timeout = .ok s ∨ ∃ generation, replacement id timeout generation = .ok s

theorem Made.fresh {s : ResourceExecutor} (h : Made s) : s.Fresh := by
  obtain ⟨id, timeout, h | ⟨generation, h⟩⟩ := h
  · exact withRecoveryTimeout_fresh h
  · exact replacement_fresh h

/-! ### What each call does -/

/-- What an admission adds, under the next id. -/
structure Admits (s : ResourceExecutor) (t : Transaction) : Prop where
  id : t.id = s.nextTransaction
  origin : t.origin = t
  once : t.kind.intent.isSome → t.retryable = false

/-- What a retirement attempt leaves. -/
inductive Retired (s : ResourceExecutor) : ResourceExecutor → Prop
  | again (closed : s.closed = true) : Retired s
    { s with queue := [], safeQueue := none,
             events := s.events ++ s.queue.map s.fencedEvent ++ s.safeQueue.toList.map s.fencedEvent }
  | active {a status} (state : s.state = .active a) : Retired s
    { finish { s with
        queue := [], safeQueue := none, state := .offline
        events := s.events ++ s.queue.map s.fencedEvent ++ s.safeQueue.toList.map s.fencedEvent }
        a.transaction .failed (decide (a.writeOffset > 0)) none with closed := status }
  | recovering {r status} (state : s.state = .recovering r) : Retired s
    { finish { s with
        queue := [], safeQueue := none, state := .offline
        events := s.events ++ s.queue.map s.fencedEvent ++ s.safeQueue.toList.map s.fencedEvent }
        r.transaction .failed r.started none with closed := status }
  | unowned {status} (state : s.state.transactions = []) : Retired s
    { s with
      queue := [], safeQueue := none, state := .offline
      events := s.events ++ s.queue.map s.fencedEvent ++ s.safeQueue.toList.map s.fencedEvent
      closed := status }

/-- Everything one call can do. -/
inductive Moved {ω : Type} (o : Owner ω) : Owner ω → Prop
  | rejected : Moved o o
  | queued {t} (admits : Admits o.executor t) : Moved o
    { o with
      executor := { o.executor with
        nextTransaction := o.executor.nextTransaction + 1, queue := o.executor.queue ++ [t] }
      admitted := o.admitted ++ [t] }
  | slotted {t} (admits : Admits o.executor t) (free : o.executor.safeQueue = none) : Moved o
    { o with
      executor := { o.executor with
        nextTransaction := o.executor.nextTransaction + 1, safeQueue := some t }
      admitted := o.admitted ++ [t] }
  | polled {now calls result s w} (h : Polled o.executor now calls result s) : Moved o
    { o with
      executor := s
      world := w
      taken := o.taken ++ result.toOption.join.toList
      polls := o.polls ++ [{ time := now, calls := calls, result := result }] }
  | fenced {deadline} (idle : o.executor.state = .idle) : Moved o
    { o with executor := { o.executor with
        queue := []
        events := o.executor.events ++ o.executor.queue.map o.executor.fencedEvent
        state := .protocolRecovery deadline } }
  | cancelledSafe {t} (slot : o.executor.safeQueue = some t) : Moved o
    { o with executor := { o.executor with safeQueue := none }, cancelled := o.cancelled ++ [t.id] }
  | cancelled {t before rest} (queue : o.executor.queue = before ++ t :: rest) : Moved o
    { o with executor := { o.executor with queue := before ++ rest }, cancelled := o.cancelled ++ [t.id] }
  | retired {s w} (h : Retired o.executor s) : Moved o { o with executor := s, world := w }
  | took {event rest} (events : o.executor.events = event :: rest) : Moved o
    { o with executor := { o.executor with events := rest }, taken := o.taken ++ [event] }

variable {ω : Type} {B : Boundary ω} {s : ResourceExecutor} {o : Owner ω}

theorem enqueueRead_moved (request : List UInt8) (expectedResponse queuedAt queueDeadline timeout : ℕ)
    (retryable : Bool) (bindingGeneration mappingRevision : ℕ) :
    Moved o (o.enqueueRead request expectedResponse queuedAt queueDeadline timeout retryable
      bindingGeneration mappingRevision) := by
  have hrejected : Moved o { o with admitted := o.admitted ++ [] } := by
    rw [List.append_nil]
    exact .rejected
  unfold Owner.enqueueRead ResourceExecutor.enqueueRead
  split_ifs
  · exact hrejected
  · exact hrejected
  · exact hrejected
  · cases hc : checkedAdd o.executor.nextTransaction 1 with
    | none => exact hrejected
    | some following =>
      obtain ⟨rfl, -⟩ := checkedAdd_eq_some.1 hc
      exact .queued ⟨rfl, rfl, by simp [readTransaction, TransactionKind.intent]⟩

theorem enqueueOutput_moved (request : List UInt8) (expectedResponse queuedAt queueDeadline timeout : ℕ)
    (intent : OutputIntent) :
    Moved o (o.enqueueOutput request expectedResponse queuedAt queueDeadline timeout intent) := by
  have hrejected : Moved o { o with admitted := o.admitted ++ [] } := by
    rw [List.append_nil]
    exact .rejected
  have hadmits : Admits o.executor (outputTransaction o.executor.nextTransaction request
    expectedResponse queueDeadline timeout intent) := ⟨rfl, rfl, fun _ => rfl⟩
  unfold Owner.enqueueOutput ResourceExecutor.enqueueOutput
  split_ifs with _ hfull _ hsafe
  · exact hrejected
  · exact hrejected
  · exact hrejected
  · cases hc : checkedAdd o.executor.nextTransaction 1 with
    | none => exact hrejected
    | some following =>
      obtain ⟨rfl, -⟩ := checkedAdd_eq_some.1 hc
      exact .slotted hadmits (by simpa [hsafe] using hfull)
  · cases hc : checkedAdd o.executor.nextTransaction 1 with
    | none => exact hrejected
    | some following =>
      obtain ⟨rfl, -⟩ := checkedAdd_eq_some.1 hc
      exact .queued hadmits

theorem poll_moved (now : ℕ) : Moved o (o.poll B now) := by
  obtain ⟨calls, hpolled, hcalls⟩ := poll_spec (B := B.recorded) o.executor (o.world, []) now
  have hlog := hcalls B.recorder
  unfold Owner.poll
  rcases hres : o.executor.pollAuthorized B.recorded (o.world, []) now with ⟨⟨result, s⟩, w, log⟩
  rw [hres] at hpolled hlog
  obtain rfl : log = calls := hlog
  exact .polled hpolled

theorem protocolFailure_moved : Moved o { o with executor := o.executor.protocolFailure.2 } := by
  unfold protocolFailure
  cases hs : o.executor.state with
  | idle =>
    dsimp only
    cases durationAdd o.executor.lastPoll o.executor.recoveryTimeout with
    | none => exact .rejected
    | some deadline =>
      rw [fenceOrdinaryQueue_eq]
      exact .fenced hs
  | active | recovering | protocolRecovery | offline => exact .rejected

/-- A cancellation looks at the safe slot first, then takes the first queued transaction of that id. -/
theorem cancelQueuedOutput_moved (id : ℕ) : Moved o
    { o with
      executor := (o.executor.cancelQueuedOutput id).2
      cancelled := o.cancelled ++ o.executor.cancels id } := by
  unfold cancelQueuedOutput
  cases hslot : o.executor.safeQueue.filter (fun queued => queued.id == id) with
  | some t =>
    obtain ⟨hsafe, hid⟩ := Option.filter_eq_some_iff.1 hslot
    obtain rfl : t.id = id := by simpa using hid
    have hcancels : o.executor.cancels t.id = [t.id] := by simp [cancels, waiting, hsafe]
    rw [hcancels]
    exact .cancelledSafe hsafe
  | none =>
    have hsafe : ∀ t ∈ o.executor.safeQueue.toList, ¬ t.id = id := by
      intro t ht hid
      have := Option.filter_eq_none_iff.1 hslot t (by simpa using ht)
      simp [hid] at this
    cases hfind : o.executor.queue.find? (fun queued => queued.id == id) with
    | none =>
      have hcancels : o.executor.cancels id = [] := by
        have hqueue := List.find?_eq_none.1 hfind
        simp only [cancels, waiting, List.any_append, Bool.or_eq_true, List.any_eq_true, beq_iff_eq]
        rw [if_neg]
        rintro (⟨t, ht, hid⟩ | ⟨t, ht, hid⟩)
        · exact hsafe t ht hid
        · exact hqueue t ht (by simpa using hid)
      rw [hcancels, List.append_nil]
      exact .rejected
    | some t =>
      obtain ⟨hid, before, rest, hqueue, hbefore⟩ := List.find?_eq_some_iff_append.1 hfind
      obtain rfl : t.id = id := by simpa using hid
      have hcancels : o.executor.cancels t.id = [t.id] := by simp [cancels, waiting, hqueue]
      have herase : o.executor.queue.eraseP (fun queued => queued.id == t.id) = before ++ rest := by
        rw [hqueue, List.eraseP_append_right _ (by simpa using hbefore)]
        simp
      dsimp only
      rw [hcancels, herase]
      exact .cancelled hqueue

theorem fenceQueues_eq (s : ResourceExecutor) : s.fenceOrdinaryQueue.fenceSafeQueue =
    { s with
      queue := [], safeQueue := none
      events := s.events ++ s.queue.map s.fencedEvent ++ s.safeQueue.toList.map s.fencedEvent } := by
  rw [fenceOrdinaryQueue_eq]
  unfold fenceSafeQueue
  cases hs : s.safeQueue with
  | none => simp
  | some t => rfl

theorem tryShutdown_retired (w : ω) : Retired s (s.tryShutdown B w).1.2 := by
  unfold tryShutdown
  rw [fenceQueues_eq]
  cases hclosed : s.closed with
  | true =>
    have h := Retired.again hclosed
    rwa [hclosed] at h
  | false =>
    simp only [Bool.false_eq_true, if_false]
    unfold retire
    cases hs : s.state with
    | active a => exact .active hs
    | recovering r => exact .recovering hs
    | idle | protocolRecovery | offline => exact .unowned (by rw [hs]; rfl)

theorem takeEvent_moved : Moved o
    { o with executor := o.executor.takeEvent.2, taken := o.taken ++ o.executor.takeEvent.1.toList } := by
  unfold takeEvent
  cases he : o.executor.events with
  | nil =>
    have h : Moved o { o with executor := { o.executor with events := o.executor.events }, taken := o.taken ++ [] } := by
      rw [List.append_nil]
      exact .rejected
    rwa [he] at h
  | cons event rest => exact .took he

/-- Every call is one of these. -/
theorem step_moved (o : Owner ω) (op : ExecutorOp) : Moved o (o.step B op) := by
  cases op with
  | enqueueRead => exact enqueueRead_moved ..
  | enqueueOutput => exact enqueueOutput_moved ..
  | poll now => exact poll_moved now
  | protocolFailure => exact protocolFailure_moved
  | cancelQueuedOutput id => exact cancelQueuedOutput_moved id
  | tryShutdown => exact .retired (tryShutdown_retired o.world)
  | takeEvent => exact takeEvent_moved

/-! ### What no poll changes -/

/-- The counter of ids and the recovery timeout are left alone. -/
structure Framed (s s' : ResourceExecutor) : Prop where
  next : s'.nextTransaction = s.nextTransaction
  timeout : s'.recoveryTimeout = s.recoveryTimeout

theorem Served.frame {a : Active} {now : ℕ} {calls : List WireEvent} {turn : Turn} (h : Served s a now calls turn) :
    Framed s turn.2 ∧ turn.2.state = s.state := by
  cases h with
  | lost =>
    rw [enterRecovery_eq]
    split <;> exact ⟨⟨rfl, rfl⟩, rfl⟩
  | overread =>
    rw [enterProtocolRecovery_eq]
    split <;> exact ⟨⟨rfl, rfl⟩, rfl⟩
  | refused | waiting | partly | completed => exact ⟨⟨rfl, rfl⟩, rfl⟩

theorem takeNext_frame {t : Transaction} {s' : ResourceExecutor} (h : s.takeNext = (some t, s')) :
    Framed s s' ∧ s'.state = s.state := by
  obtain ⟨-, rfl⟩ | ⟨-, rest, -, rfl⟩ := takeNext_some h <;> exact ⟨⟨rfl, rfl⟩, rfl⟩

theorem Progress.frame {state : OwnedState} {now : ℕ} {calls : List WireEvent} {turn : Turn}
    (h : Progress s now state calls turn) : Framed s turn.2 ∧ turn.2.state = s.state := by
  cases h with
  | queueExpired next =>
    obtain ⟨⟨h1, h2⟩, h3⟩ := takeNext_frame next
    exact ⟨⟨h1, h2⟩, h3⟩
  | unschedulable next => exact takeNext_frame next
  | begun next _ _ served =>
    obtain ⟨⟨h1, h2⟩, h3⟩ := takeNext_frame next
    obtain ⟨⟨h4, h5⟩, h6⟩ := served.frame
    exact ⟨⟨h4.trans h1, h5.trans h2⟩, h6.trans h3⟩
  | active served => exact served.frame
  | rest | timedOut | recovering | exhausted | retried | recovered | unrecovered | boundaryLate | boundaryPending
  | boundaryExhausted | boundaryRecovered | boundaryFailed | offline => exact ⟨⟨rfl, rfl⟩, rfl⟩

theorem Polled.frame {now : ℕ} {calls : List WireEvent} {result : Except TransportError (Option TransportEvent)}
    {s' : ResourceExecutor} (h : Polled s now calls result s') : Framed s s' := by
  cases h with
  | backwards | popped => exact ⟨rfl, rfl⟩
  | failed _ _ progress => exact ⟨progress.frame.1.next, progress.frame.1.timeout⟩
  | progressed _ _ progress => exact ⟨progress.frame.1.next, progress.frame.1.timeout⟩

theorem Retired.frame {s' : ResourceExecutor} (h : Retired s s') : Framed s s' := by
  cases h <;> exact ⟨rfl, rfl⟩

theorem Retired.shrinks {s' : ResourceExecutor} (h : Retired s s') : s'.waiting = [] ∧ (s'.state = s.state ∨ s'.state = .offline) := by
  cases h with
  | again => exact ⟨rfl, .inl rfl⟩
  | active | recovering | unowned => exact ⟨rfl, .inr rfl⟩

theorem Moved.polls_subset {o' : Owner ω} (h : Moved o o') {p : PollRecord} (hp : p ∈ o.polls) : p ∈ o'.polls := by
  cases h with
  | polled => exact List.mem_append_left _ hp
  | rejected | queued | slotted | fenced | cancelledSafe | cancelled | retired | took => exact hp

/-! ### A scripted outside -/

/-- Answers still to be given, in order. -/
structure Script where
  writes : List (Except TransportIoError ℕ) := []
  reads : List (Except TransportIoError ℕ) := []
  recoveries : List (Except TransportIoError RecoveryStatus) := []
  answers : List (Except Unit (Option DispatchId)) := []

/-- Answers from the script; after it every request is accepted whole and answered in full. -/
def scripted : Boundary Script where
  tryWrite := fun script offer => match script.writes with
    | [] => (.ok offer.bytes.length, script)
    | result :: rest => (result, { script with writes := rest })
  tryRead := fun script _ length => match script.reads with
    | [] => (.ok (length - 1), Vector.replicate length 0, script)
    | result :: rest => (result, Vector.replicate length 0, { script with reads := rest })
  tryRecover := fun script => match script.recoveries with
    | [] => (.ok .complete, script)
    | result :: rest => (result, { script with recoveries := rest })
  tryShutdown := fun script => (.complete, script)
  authorize := fun script _ step => match script.answers with
    | [] => (.ok (if step = .started then some { instanceId := 1, sequence := 1 } else none), script)
    | answer :: rest => (answer, { script with answers := rest })

/-- A two-byte read with a one-byte response. -/
def pollRead (queuedAt : ℕ) (retryable : Bool) : ExecutorOp :=
  .enqueueRead [1, 2] 1 queuedAt (queuedAt + fromSecs 2) (fromSecs 1) retryable 1 1

def newExecutor : ResourceExecutor :=
  { id := 1, queue := [], safeQueue := none, state := .idle, recoveryTimeout := fromSecs 1, generation := 1,
    nextTransaction := 1, lastPoll := 0, latest := none, latestResponse := none, events := [], closed := false }

theorem newExecutor_made : Made newExecutor := ⟨1, fromSecs 1, .inl rfl⟩

end ResourceExecutor
end LabRuntime
