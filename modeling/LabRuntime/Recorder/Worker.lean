import LabRuntime.Recorder.Store

/-! The storage worker: it takes messages from the bounded channel in order, runs one transaction
for each message or batch of fact groups, and then publishes a cumulative receipt. Its steps are
the points at which it can be overtaken by the owner. -/

namespace LabRuntime.Recorder

inductive RecordingState
  | idle | starting | recording | stopping | failed | closed
  deriving DecidableEq, Repr

structure Receipt where
  state : RecordingState
  persisted : ℕ
  released : Credit
  referenceReleased : Credit
  firstError : Option StorageError
  confirmedSubmission : Option ℕ
  runNo : Option ℕ
  intervalNo : Option ℕ
  terminalSealCommitted : Bool
  activationRoot : Option ActivationRoot
  activationGeneration : ℕ
  failurePersisted : Bool
  deriving DecidableEq, Repr

def Receipt.default : Receipt :=
  { state := .idle, persisted := 0, released := 0, referenceReleased := 0, firstError := none
    confirmedSubmission := none, runNo := none, intervalNo := none, terminalSealCommitted := false
    activationRoot := none, activationGeneration := 0, failurePersisted := false }

/-- The later of a time and one that may not have been set. -/
def latest (old : Option ℕ) (time : ℕ) : ℕ := old.elim time (max · time)

def Receipt.confirm (receipt : Receipt) (submittedAt : ℕ) : Receipt :=
  { receipt with confirmedSubmission := some (latest receipt.confirmedSubmission submittedAt) }

def Receipt.release (receipt : Receipt) (credit : Credit) : Receipt :=
  { receipt with released := receipt.released + credit }

def Receipt.releaseReference (receipt : Receipt) (credit : Credit) : Receipt :=
  { receipt with released := receipt.released + credit, referenceReleased := receipt.referenceReleased + credit }

def Receipt.fail (receipt : Receipt) (error : StorageError) : Receipt :=
  { receipt with state := .failed, firstError := some (receipt.firstError.getD error) }

/-- What one transaction is for: a message, or consecutive fact groups. -/
inductive Work
  | one (message : Message)
  | batch (groups : List FactGroup)
  deriving DecidableEq, Repr

namespace Work

def messages : Work → List Message
  | .one message => [message]
  | .batch groups => groups.map .facts

def of : Message → Work
  | .facts group => .batch [group]
  | message => .one message

/-- Each group starts where the one before it ended. -/
def aligned (expected : ℕ) : List FactGroup → Bool
  | [] => true
  | group :: groups =>
    group.firstRecord = expected && match checkedAdd expected group.facts.length with
      | some next => aligned next groups
      | none => false

def batchFacts (groups : List FactGroup) : List (List Fact) := groups.map FactGroup.facts

def executeBatch (store : SqliteStore) : List FactGroup → Except StorageError SqliteStore
  | [] => .error "noncontiguous owner record reservation"
  | group :: groups =>
    if aligned group.firstRecord (group :: groups) then
      store.appendFactGroups (batchFacts (group :: groups)) group.firstRecord
    else .error "noncontiguous owner record reservation"

/-- The transaction of a message. History reads are answered before this point. -/
def execute (store : SqliteStore) : Work → Except StorageError SqliteStore
  | .batch groups => executeBatch store groups
  | .one message => match message with
    | .activation _ lifecycle => store.commitActivation lifecycle
    | .start label policy _ boundary firstRecord => store.startRun label policy boundary firstRecord
    | .facts group => executeBatch store [group]
    | .clockAnchor assigned => store.appendClockAnchor assigned
    | .operation operation _ assigned => store.appendOperation operation assigned
    | .referenceAccepted operation _ assigned => store.appendOperation operation assigned
    | .referenceCompletion fact _ terminal _ firstRecord => store.appendReferenceCompletion fact terminal firstRecord
    | Message.annotation note _ assigned => store.appendAnnotation note assigned
    | .gapSeal gap assigned => store.failRun gap assigned
    | .probe submittedAt => store.probe submittedAt
    | .history _ => .ok store
    | .runs _ => .ok store
    | .stop summary _ firstRecord => store.stopRun summary firstRecord
    | .finish summary _ firstRecord => store.finishBoot summary firstRecord

end Work

/-- The counted size of a batch: its groups, their facts and their bytes. -/
def batchCredit (groups : List FactGroup) : Credit :=
  ⟨groups.length, (groups.map fun group => group.facts.length).sum, (groups.map FactGroup.bytes).sum⟩

/-- The greatest submission time of a batch. -/
def batchSubmission (groups : List FactGroup) : ℕ := (groups.map FactGroup.submittedAt).foldl max 0

/-- The receipt after an activation; the generation must be the next one. -/
def Receipt.activated (receipt : Receipt) (root : ActivationRoot) (lifecycle : Option LiveActivation) :
    Except StorageError Receipt := do
  let expected ← following receipt.activationGeneration "activation generation exhausted"
  require (lifecycle.all fun live => live.generation = expected) "activation generation mismatch"
  let receipt := { receipt with activationRoot := some root, activationGeneration := expected }
  match lifecycle with
  | none => return receipt
  | some live => return { (receipt.confirm live.record.time).release ⟨1, 1, live.bytes⟩ with persisted := live.assigned }

/-- The receipt after the transaction that left `store`. -/
def Receipt.publish (receipt : Receipt) (store : SqliteStore) : Work → Except StorageError Receipt
  | .batch groups =>
    .ok { (receipt.confirm (batchSubmission groups)).release (batchCredit groups) with
      persisted := store.nextRecordSequence }
  | .one message => match message with
    | .activation root lifecycle => receipt.activated root lifecycle
    | .start _ _ submittedAt _ _ =>
      .ok { receipt with
        state := .recording, persisted := store.nextRecordSequence, confirmedSubmission := some submittedAt
        runNo := store.runNo, intervalNo := store.intervalNo }
    | .facts group =>
      .ok { (receipt.confirm group.submittedAt).release (batchCredit [group]) with persisted := store.nextRecordSequence }
    | .clockAnchor _ => .ok { receipt with persisted := store.nextRecordSequence }
    | .operation operation bytes _ =>
      .ok { (receipt.confirm operation.time).release ⟨1, 1, bytes⟩ with persisted := store.nextRecordSequence }
    | .referenceAccepted operation bytes _ =>
      .ok { (receipt.confirm operation.time).releaseReference ⟨1, 1, bytes⟩ with persisted := store.nextRecordSequence }
    | .referenceCompletion fact capturedAt terminal bytes _ =>
      let records := 1 + if fact.isSome then 1 else 0
      .ok { (receipt.confirm (max capturedAt terminal.time)).releaseReference ⟨1, records, bytes⟩ with
        persisted := store.nextRecordSequence }
    | Message.annotation note bytes _ =>
      .ok { (receipt.confirm note.time).release ⟨1, 1, bytes⟩ with persisted := store.nextRecordSequence }
    | .gapSeal _ _ =>
      .ok { receipt with persisted := store.nextRecordSequence, failurePersisted := true, runNo := none, intervalNo := none }
    | .probe submittedAt => .ok (receipt.confirm submittedAt)
    | .history _ => .ok receipt
    | .runs _ => .ok receipt
    | .stop _ _ _ =>
      .ok { receipt with state := .idle, persisted := store.nextRecordSequence, runNo := none, intervalNo := none }
    | .finish _ _ _ => .ok { receipt with terminalSealCommitted := true }

/-- Where the worker stands. `lost` is what it will never execute. -/
inductive Phase
  /-- about to take the deferred message, or the next of the channel -/
  | ready (deferred : Option Message)
  /-- executing a history read -/
  | reading (message : Message)
  | holding (work : Work) (deferred : Option Message)
  /-- the transaction has committed, its receipt is not published -/
  | stored (work : Work) (deferred : Option Message)
  /-- the receipt is published, the storage footprint is not inspected -/
  | receipted (deferred : Option Message)
  /-- the boot is sealed, the connection is not closed -/
  | closing (lost : List Message)
  /-- the loop has returned and has dropped the channel -/
  | leaving (lost : List Message)
  | exiting (lost : List Message)
  | ended (lost : List Message)
  | unwound (lost : List Message)
  deriving Repr

namespace Phase

/-- What has been taken from the channel and is not settled. -/
def inHand : Phase → List Message
  | .ready deferred => deferred.toList
  | .reading _ => []
  | .holding work deferred => work.messages ++ deferred.toList
  | .stored _ deferred => deferred.toList
  | .receipted deferred => deferred.toList
  | .closing lost => lost
  | .leaving lost => lost
  | .exiting lost => lost
  | .ended lost => lost
  | .unwound lost => lost

/-- The worker loop runs and holds the receiving end of the channel. -/
def receiving : Phase → Bool
  | .leaving _ => false
  | .exiting _ => false
  | .ended _ => false
  | .unwound _ => false
  | _ => true

end Phase

/-- One step of the worker. A fault is what the disk or the operating system answers. -/
inductive WorkerMove
  | receive
  | gather
  | answer
  | transact (fault : Option StorageError)
  | publish (fault : Option StorageError)
  | inspect (fault : Option StorageError)
  | close (fault : Option StorageError)
  | leave
  | retire
  | finish
  | panic
  deriving DecidableEq, Repr

/-- The worker, its store, and what it shares with the owner. `settled`, `published` and `refused`
keep the past: messages taken for good, values of the receipt, messages the channel had no slot
for. -/
structure Storage where
  queue : List Message
  receipt : Receipt
  alive : Bool
  finished : Bool
  activeHistoryJobs : List ℕ
  historyMailbox : List ℕ
  runsMailbox : List ℕ
  phase : Phase
  store : SqliteStore
  settled : List Message
  published : List Receipt
  refused : List Message
  deriving Repr

namespace Storage

def opened : Storage :=
  { queue := [], receipt := .default, alive := true, finished := false, activeHistoryJobs := [], historyMailbox := []
    runsMailbox := [], phase := .ready none, store := .opened, settled := [], published := [.default], refused := [] }

/-- Everything the owner has sent, in order. -/
def sent (s : Storage) : List Message := s.settled ++ s.phase.inHand ++ s.queue

/-- Change the shared receipt. -/
def post (s : Storage) (f : Receipt → Receipt) : Storage :=
  { s with receipt := f s.receipt, published := s.published ++ [f s.receipt] }

/-- A value the shared receipt has or has had. -/
def Shown (s : Storage) (receipt : Receipt) : Prop := receipt = s.receipt ∨ receipt ∈ s.published

/-- The loop returns with an error. -/
def collapse (s : Storage) (error : StorageError) (lost : List Message) : Storage :=
  { s.post (·.fail error) with phase := .leaving lost }

/-- Start on a message that has left the channel. -/
def take (s : Storage) (message : Message) : Storage :=
  match message with
  | .history _ => { s with phase := .reading message, settled := s.settled ++ [message] }
  | .runs _ => { s with phase := .reading message, settled := s.settled ++ [message] }
  | _ => { s with phase := .holding (.of message) none }

/-- Publish a page for a job that still has its slot. -/
def answer (s : Storage) (message : Message) : Storage :=
  let s := { s with phase := .ready none }
  match message with
  | .history job => if job ∈ s.activeHistoryJobs then { s with historyMailbox := s.historyMailbox.insert job } else s
  | .runs job => if job ∈ s.activeHistoryJobs then { s with runsMailbox := s.runsMailbox.insert job } else s
  | _ => s

/-- A batch takes another group while it has room; any other message is deferred. -/
def gather (s : Storage) (groups : List FactGroup) : Storage :=
  let size := batchCredit groups
  if size.groups < maxBatchGroups ∧ size.records < 256 ∧ size.bytes < maxGroupBytes then
    match s.queue with
    | [] => s
    | .facts group :: queue =>
      if 256 - size.records < group.facts.length ∨ maxGroupBytes - size.bytes < group.bytes then
        { s with queue, phase := .holding (.batch groups) (some (.facts group)) }
      else { s with queue, phase := .holding (.batch (groups ++ [group])) none }
    | message :: queue => { s with queue, phase := .holding (.batch groups) (some message) }
  else s

def transact (s : Storage) (fault : Option StorageError) (work : Work) (deferred : Option Message) : Storage :=
  match fault with
  | some error => s.collapse error (work.messages ++ deferred.toList)
  | none => match work.execute s.store with
    | .error error => s.collapse error (work.messages ++ deferred.toList)
    | .ok store => { s with store, settled := s.settled ++ work.messages, phase := .stored work deferred }

def isFinish : Work → Bool
  | .one (.finish ..) => true
  | _ => false

def isStart : Work → Bool
  | .one (.start ..) => true
  | _ => false

/-- A start reads the storage footprint before its receipt. -/
def publish (s : Storage) (fault : Option StorageError) (work : Work) (deferred : Option Message) : Storage :=
  match if isStart work then fault else none with
  | some error => s.collapse error deferred.toList
  | none => match s.receipt.publish s.store work with
    | .error error => s.collapse error deferred.toList
    | .ok receipt =>
      { s.post (fun _ => receipt) with
        phase := if isFinish work then .closing deferred.toList else .receipted deferred }

/-- After the loop: the connection is dropped, then the last receipt is written. -/
def lastReceipt (receipt : Receipt) : Receipt :=
  if receipt.state ≠ .failed ∧ receipt.terminalSealCommitted then { receipt with state := .closed }
  else if receipt.state ≠ .failed then receipt.fail "storage worker exited without a terminal seal"
  else receipt

def work (s : Storage) (move : WorkerMove) : Storage :=
  match move, s.phase with
  | .receive, .ready (some message) => s.take message
  | .receive, .ready none => match s.queue with
    | [] => s
    | message :: queue => { s with queue }.take message
  | .answer, .reading message => s.answer message
  | .gather, .holding (.batch groups) none => s.gather groups
  | .transact fault, .holding work deferred => s.transact fault work deferred
  | .publish fault, .stored work deferred => s.publish fault work deferred
  | .inspect fault, .receipted deferred => match fault with
    | some error => s.collapse error deferred.toList
    | none => { s with phase := .ready deferred }
  | .close fault, .closing lost => match fault with
    | some error => s.collapse error lost
    | none => { s with phase := .leaving lost }
  | .leave, .leaving lost => { s.post lastReceipt with phase := .exiting lost }
  | .retire, .exiting lost => { s with alive := false, phase := .ended lost }
  | .finish, .ended _ => { s with finished := true }
  | .finish, .unwound _ => { s with finished := true }
  | .panic, phase => if phase.receiving then { s with phase := .unwound phase.inHand } else s
  | _, _ => s

/-! ### What one move can do -/

/-- History reads are answered outside the transactions. -/
def isJob : Message → Bool
  | .history _ => true
  | .runs _ => true
  | _ => false

/-- The loop ends with what was in hand. -/
def collapsed (s : Storage) (error : StorageError) : Storage := s.collapse error s.phase.inHand

inductive Worked (s : Storage) : Storage → Prop
  | deferredJob (message : Message) (phase : s.phase = .ready (some message)) (job : isJob message = true) :
      Worked s { s with phase := .reading message, settled := s.settled ++ [message] }
  | queuedJob (message : Message) (queue : List Message) (phase : s.phase = .ready none)
      (head : s.queue = message :: queue) (job : isJob message = true) :
      Worked s { s with queue, phase := .reading message, settled := s.settled ++ [message] }
  | deferredWork (message : Message) (phase : s.phase = .ready (some message)) (work : isJob message = false) :
      Worked s { s with phase := .holding (.of message) none }
  | queuedWork (message : Message) (queue : List Message) (phase : s.phase = .ready none)
      (head : s.queue = message :: queue) (work : isJob message = false) :
      Worked s { s with queue, phase := .holding (.of message) none }
  | answered (message : Message) (history runs : List ℕ) (phase : s.phase = .reading message) :
      Worked s { s with phase := .ready none, historyMailbox := history, runsMailbox := runs }
  | gathered (groups : List FactGroup) (group : FactGroup) (queue : List Message)
      (phase : s.phase = .holding (.batch groups) none) (head : s.queue = .facts group :: queue)
      (room : groups.length < maxBatchGroups ∧
        (batchCredit groups).records + group.facts.length ≤ 256) :
      Worked s { s with queue, phase := .holding (.batch (groups ++ [group])) none }
  | deferred (groups : List FactGroup) (message : Message) (queue : List Message)
      (phase : s.phase = .holding (.batch groups) none) (head : s.queue = message :: queue) :
      Worked s { s with queue, phase := .holding (.batch groups) (some message) }
  | executed (work : Work) (deferred : Option Message) (store : SqliteStore) (phase : s.phase = .holding work deferred)
      (committed : work.execute s.store = .ok store) :
      Worked s { s with store, settled := s.settled ++ work.messages, phase := .stored work deferred }
  | rejected (work : Work) (deferred : Option Message) (error : StorageError) (phase : s.phase = .holding work deferred)
      (refused : work.execute s.store = .error error) : Worked s (s.collapsed error)
  | published (work : Work) (deferred : Option Message) (receipt : Receipt) (phase : s.phase = .stored work deferred)
      (ok : s.receipt.publish s.store work = .ok receipt) :
      Worked s { s.post (fun _ => receipt) with
        phase := if isFinish work then .closing deferred.toList else .receipted deferred }
  | mismatched (work : Work) (deferred : Option Message) (error : StorageError) (phase : s.phase = .stored work deferred)
      (refused : s.receipt.publish s.store work = .error error) : Worked s (s.collapsed error)
  | inspected (deferred : Option Message) (phase : s.phase = .receipted deferred) :
      Worked s { s with phase := .ready deferred }
  | closed (lost : List Message) (phase : s.phase = .closing lost) : Worked s { s with phase := .leaving lost }
  | left (lost : List Message) (phase : s.phase = .leaving lost) :
      Worked s { s.post lastReceipt with phase := .exiting lost }
  | retired (lost : List Message) (phase : s.phase = .exiting lost) :
      Worked s { s with alive := false, phase := .ended lost }
  | finished (down : s.phase.receiving = false) : Worked s { s with finished := true }

/-- What the disk or the operating system may do to a running worker. -/
inductive Broken (s : Storage) : Storage → Prop
  | faulted (error : StorageError) (running : s.phase.receiving = true) : Broken s (s.collapsed error)
  | panicked (running : s.phase.receiving = true) : Broken s { s with phase := .unwound s.phase.inHand }

/-- A move that only the environment can bring about. -/
def breaks : WorkerMove → Bool
  | .transact fault => fault.isSome
  | .publish fault => fault.isSome
  | .inspect fault => fault.isSome
  | .close fault => fault.isSome
  | .panic => true
  | _ => false

theorem take_worked (s : Storage) (message : Message) :
    (isJob message = true ∧ s.take message =
        { s with phase := .reading message, settled := s.settled ++ [message] }) ∨
      (isJob message = false ∧ s.take message = { s with phase := .holding (.of message) none }) := by
  cases message with
  | history job => exact .inl ⟨rfl, rfl⟩
  | runs job => exact .inl ⟨rfl, rfl⟩
  | _ => exact .inr ⟨rfl, rfl⟩

/-- A move does nothing, or what the worker does, or what its environment does to it. -/
theorem work_cases (s : Storage) (move : WorkerMove) :
    s.work move = s ∨ s.Worked (s.work move) ∨ (breaks move = true ∧ s.Broken (s.work move)) := by
  cases move with
  | receive =>
    cases hphase : s.phase with
    | ready deferred =>
      cases deferred with
      | some message =>
        have hwork : s.work .receive = s.take message := by simp [work, hphase]
        rw [hwork]
        obtain ⟨hjob, heq⟩ | ⟨hjob, heq⟩ := take_worked s message
        · exact .inr (.inl (heq ▸ .deferredJob message hphase hjob))
        · exact .inr (.inl (heq ▸ .deferredWork message hphase hjob))
      | none =>
        cases hqueue : s.queue with
        | nil => exact .inl (by simp [work, hphase, hqueue])
        | cons message queue =>
          have hwork : s.work .receive = { s with queue }.take message := by simp [work, hphase, hqueue]
          rw [hwork]
          obtain ⟨hjob, heq⟩ | ⟨hjob, heq⟩ := take_worked { s with queue } message
          · exact .inr (.inl (heq ▸ .queuedJob message queue hphase hqueue hjob))
          · exact .inr (.inl (heq ▸ .queuedWork message queue hphase hqueue hjob))
    | _ => exact .inl (by simp [work, hphase])
  | gather =>
    cases hphase : s.phase with
    | holding held deferred =>
      cases held with
      | one message => exact .inl (by simp [work, hphase])
      | batch groups =>
        cases deferred with
        | some message => exact .inl (by simp [work, hphase])
        | none =>
          have hwork : s.work .gather = s.gather groups := by simp [work, hphase]
          rw [hwork]
          unfold gather
          dsimp only
          split_ifs with hroom
          · cases hqueue : s.queue with
            | nil => exact .inl rfl
            | cons message queue =>
              cases message with
              | facts group =>
                dsimp only
                split_ifs with hlarge
                · exact .inr (.inl (.deferred groups _ queue hphase hqueue))
                · refine .inr (.inl (.gathered groups group queue hphase hqueue ⟨hroom.1, ?_⟩))
                  omega
              | _ => exact .inr (.inl (.deferred groups _ queue hphase hqueue))
          · exact .inl rfl
    | _ => exact .inl (by simp [work, hphase])
  | answer =>
    cases hphase : s.phase with
    | reading message =>
      have hwork : s.work .answer = s.answer message := by simp [work, hphase]
      rw [hwork]
      refine .inr (.inl ?_)
      cases message with
      | history job =>
        by_cases hjob : job ∈ s.activeHistoryJobs
        · rw [show s.answer (.history job) = { s with
            phase := .ready none, historyMailbox := s.historyMailbox.insert job } from if_pos hjob]
          exact .answered _ _ s.runsMailbox hphase
        · rw [show s.answer (.history job) = { s with phase := .ready none } from if_neg hjob]
          exact .answered _ s.historyMailbox s.runsMailbox hphase
      | runs job =>
        by_cases hjob : job ∈ s.activeHistoryJobs
        · rw [show s.answer (.runs job) = { s with
            phase := .ready none, runsMailbox := s.runsMailbox.insert job } from if_pos hjob]
          exact .answered _ s.historyMailbox _ hphase
        · rw [show s.answer (.runs job) = { s with phase := .ready none } from if_neg hjob]
          exact .answered _ s.historyMailbox s.runsMailbox hphase
      | _ => exact .answered _ s.historyMailbox s.runsMailbox hphase
    | _ => exact .inl (by simp [work, hphase])
  | transact fault =>
    cases hphase : s.phase with
    | holding held deferred =>
      have hwork : s.work (.transact fault) = s.transact fault held deferred := by simp [work, hphase]
      have hlost : s.phase.inHand = held.messages ++ deferred.toList := by rw [hphase]; rfl
      rw [hwork]
      cases fault with
      | some error =>
        refine .inr (.inr ⟨rfl, ?_⟩)
        rw [show s.transact (some error) held deferred = s.collapsed error by rw [collapsed, hlost]; rfl]
        exact .faulted error (by rw [hphase]; rfl)
      | none =>
        refine .inr (.inl ?_)
        cases hexecute : held.execute s.store with
        | ok store =>
          rw [show s.transact none held deferred = { s with
            store, settled := s.settled ++ held.messages, phase := .stored held deferred } by simp [transact, hexecute]]
          exact .executed held deferred store hphase hexecute
        | error error =>
          rw [show s.transact none held deferred = s.collapsed error by simp [transact, hexecute, collapsed, hlost]]
          exact .rejected held deferred error hphase hexecute
    | _ => exact .inl (by simp [work, hphase])
  | publish fault =>
    cases hphase : s.phase with
    | stored held deferred =>
      have hwork : s.work (.publish fault) = s.publish fault held deferred := by simp [work, hphase]
      have hlost : s.phase.inHand = deferred.toList := by rw [hphase]; rfl
      rw [hwork]
      cases hfault : (if isStart held then fault else none : Option StorageError) with
      | some error =>
        refine .inr (.inr ⟨?_, ?_⟩)
        · cases fault with
          | none => split_ifs at hfault
          | some _ => rfl
        · rw [show s.publish fault held deferred = s.collapsed error by rw [collapsed, hlost, publish, hfault]]
          exact .faulted error (by rw [hphase]; rfl)
      | none =>
        refine .inr (.inl ?_)
        cases hpublish : s.receipt.publish s.store held with
        | ok receipt =>
          rw [show s.publish fault held deferred = { s.post (fun _ => receipt) with
            phase := if isFinish held then .closing deferred.toList else .receipted deferred } by
              rw [publish, hfault, hpublish]]
          exact .published held deferred receipt hphase hpublish
        | error error =>
          rw [show s.publish fault held deferred = s.collapsed error by rw [collapsed, hlost, publish, hfault, hpublish]]
          exact .mismatched held deferred error hphase hpublish
    | _ => exact .inl (by simp [work, hphase])
  | inspect fault =>
    cases hphase : s.phase with
    | receipted deferred =>
      cases fault with
      | some error =>
        refine .inr (.inr ⟨rfl, ?_⟩)
        rw [show s.work (.inspect (some error)) = s.collapsed error by simp [work, hphase, collapsed, Phase.inHand]]
        exact .faulted error (by rw [hphase]; rfl)
      | none =>
        rw [show s.work (.inspect none) = { s with phase := .ready deferred } by simp [work, hphase]]
        exact .inr (.inl (.inspected deferred hphase))
    | _ => exact .inl (by simp [work, hphase])
  | close fault =>
    cases hphase : s.phase with
    | closing lost =>
      cases fault with
      | some error =>
        refine .inr (.inr ⟨rfl, ?_⟩)
        rw [show s.work (.close (some error)) = s.collapsed error by simp [work, hphase, collapsed, Phase.inHand]]
        exact .faulted error (by rw [hphase]; rfl)
      | none =>
        rw [show s.work (.close none) = { s with phase := .leaving lost } by simp [work, hphase]]
        exact .inr (.inl (.closed lost hphase))
    | _ => exact .inl (by simp [work, hphase])
  | leave =>
    cases hphase : s.phase with
    | leaving lost =>
      rw [show s.work .leave = { s.post lastReceipt with phase := .exiting lost } by simp [work, hphase]]
      exact .inr (.inl (.left lost hphase))
    | _ => exact .inl (by simp [work, hphase])
  | retire =>
    cases hphase : s.phase with
    | exiting lost =>
      rw [show s.work .retire = { s with alive := false, phase := .ended lost } by simp [work, hphase]]
      exact .inr (.inl (.retired lost hphase))
    | _ => exact .inl (by simp [work, hphase])
  | finish =>
    cases hphase : s.phase with
    | ended lost =>
      rw [show s.work .finish = { s with finished := true } by simp [work, hphase]]
      exact .inr (.inl (.finished (by rw [hphase]; rfl)))
    | unwound lost =>
      rw [show s.work .finish = { s with finished := true } by simp [work, hphase]]
      exact .inr (.inl (.finished (by rw [hphase]; rfl)))
    | _ => exact .inl (by simp [work, hphase])
  | panic =>
    cases hrunning : s.phase.receiving with
    | true =>
      rw [show s.work .panic = { s with phase := .unwound s.phase.inHand } by simp [work, hrunning]]
      exact .inr (.inr ⟨rfl, .panicked hrunning⟩)
    | false => exact .inl (by simp [work, hrunning])

/-- What holds now and after everything that may happen holds after a move. -/
theorem work_keeps (I : Storage → Prop) {s : Storage} (move : WorkerMove) (same : I s)
    (worked : ∀ s', s.Worked s' → I s') (broken : ∀ s', breaks move = true → s.Broken s' → I s') : I (s.work move) := by
  obtain heq | h | ⟨hbreaks, h⟩ := s.work_cases move
  · rwa [heq]
  · exact worked _ h
  · exact broken _ hbreaks h

end Storage
end LabRuntime.Recorder
