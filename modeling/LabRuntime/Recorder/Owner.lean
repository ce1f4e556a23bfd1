import LabRuntime.Lib.Procedure
import LabRuntime.Recorder.Worker

/-! The owner's handle of the storage worker. The worker may move at every point where a call looks
at something the two share, so each such point first lets the worker take the next moves of its
schedule; a lock that is contended is not waited for. -/

namespace LabRuntime.Recorder

structure RecordingStatus where
  state : RecordingState
  persistedThroughSequence : ℕ
  outstanding : Credit
  firstError : Option StorageError
  confirmedSubmission : Option ℕ
  runNo : Option ℕ
  intervalNo : Option ℕ
  terminalSealCommitted : Bool
  activationRoot : Option ActivationRoot
  activationGeneration : ℕ
  coverage : Coverage
  firstMissingFact : Option ℕ
  failurePersisted : Bool
  workerClosed : Bool
  deriving DecidableEq, Repr

structure LiveActivationReservation where
  generation : ℕ
  bytes : ℕ
  deriving DecidableEq, Repr

/-- The one reserved Reference operation; `accepted` until the acceptance is transferred. -/
structure ReferenceReservation where
  scope : String
  seq : ℕ
  command : String
  accepted : Option OperationRecord
  acceptedBytes : ℕ
  generation : ℕ
  run : Option ℕ
  interval : Option ℕ
  fact : Option Fact
  capturedAt : ℕ
  deriving DecidableEq, Repr

/-- The credit a reservation still holds for what it has not transferred. -/
def ReferenceReservation.unused (layout : FactLayout) (r : ReferenceReservation) : Credit :=
  let accepted := if r.accepted.isSome then 1 else 0
  { groups := 1 + accepted, records := completionRecords + accepted
    bytes := completionBytes layout + accepted * r.acceptedBytes }

structure RecorderWorker (layout : FactLayout) where
  limits : RecorderLimits
  charged : Credit
  referenceCredit : Credit
  seenReferenceReleased : Credit
  seenReleased : Credit
  lastProbeRequested : Option ℕ
  probePending : Bool
  cached : RecordingStatus
  selectedPolicy : RecordingPolicy
  policyConfigured : Bool
  nextHistoryJob : ℕ
  liveHistoryJobs : List ℕ
  pendingCancellations : List ℕ
  reservedThrough : ℕ
  lastPeriodic : ℕ
  periodicPending : Option ℕ
  pendingActivationGeneration : Option ℕ
  liveActivationReservation : Option LiveActivationReservation
  referenceCompletion : Option ReferenceReservation
  reservedFactGroups : List ℕ
  nextFactReservation : ℕ
  lastOwnerSubmission : Option ℕ
  lastAcceptedFact : Option ℕ
  gapScheduled : Bool
  finishRequested : Bool
  deriving Repr

def factGroupCredit : Credit := ⟨1, 256, maxGroupBytes⟩

namespace RecorderWorker

variable {layout : FactLayout}

def opened (limits : RecorderLimits) (now : ℕ) : RecorderWorker layout :=
  { limits, charged := 0, referenceCredit := 0, seenReferenceReleased := 0, seenReleased := 0
    lastProbeRequested := none, probePending := false
    cached :=
      { state := .idle, persistedThroughSequence := 0, outstanding := 0, firstError := none
        confirmedSubmission := none, runNo := none, intervalNo := none, terminalSealCommitted := false
        activationRoot := none, activationGeneration := 0, coverage := .complete, firstMissingFact := none
        failurePersisted := false, workerClosed := false }
    selectedPolicy := .required, policyConfigured := false, nextHistoryJob := 1, liveHistoryJobs := []
    pendingCancellations := [], reservedThrough := 0, lastPeriodic := now, periodicPending := none
    pendingActivationGeneration := none, liveActivationReservation := none, referenceCompletion := none
    reservedFactGroups := [], nextFactReservation := 1, lastOwnerSubmission := none, lastAcceptedFact := none
    gapScheduled := false, finishRequested := false }

/-! ### Owner-local parts of the calls -/

/-- Credit that ordinary traffic leaves for Reference operations; smaller limits are shared. -/
def protectedFree (o : RecorderWorker layout) : Option Credit :=
  if o.limits = .default then (protectedCredit layout).delta o.referenceCredit else some 0

/-- Whether an ordinary group fits, with `free` kept for Reference operations. -/
def fitsBeside (o : RecorderWorker layout) (free : Credit) (records bytes : ℕ) : Bool :=
  o.charged.groups < o.limits.groups - free.groups &&
    records ≤ o.limits.records - free.records - o.charged.records &&
    bytes ≤ o.limits.bytes - free.bytes - o.charged.bytes

/-- The credit of the untransferred part of the Reference reservation. -/
def unusedReference (o : RecorderWorker layout) : Credit :=
  o.referenceCompletion.elim 0 (ReferenceReservation.unused layout)

def noteSubmission (o : RecorderWorker layout) (time : ℕ) : RecorderWorker layout :=
  { o with lastOwnerSubmission := some (latest o.lastOwnerSubmission time) }

def charge (o : RecorderWorker layout) (credit : Credit) : RecorderWorker layout :=
  { o with charged := o.charged + credit }

def showOutstanding (o : RecorderWorker layout) : RecorderWorker layout :=
  { o with cached := { o.cached with outstanding := o.charged } }

def setState (o : RecorderWorker layout) (state : RecordingState) : RecorderWorker layout :=
  { o with cached := { o.cached with state } }

/-- The owner's part of a failure. -/
def failing (o : RecorderWorker layout) (message : StorageError) : RecorderWorker layout :=
  { o with
    cached := { o.cached with
      coverage := if o.cached.coverage = .complete ∧ o.cached.runNo.isSome then .unknownTail else o.cached.coverage
      state := .failed, firstError := some (o.cached.firstError.getD message) } }

/-- The first known loss, before the failure. -/
def noteGap (o : RecorderWorker layout) (gap : RecorderGap) : RecorderWorker layout :=
  { o with cached := { o.cached with coverage := .gap, firstMissingFact := gap.firstMissingFact } }

/-- `count` numbers after those already assigned. -/
def plannedRange (o : RecorderWorker layout) (count : ℕ) : Option (ℕ × ℕ) :=
  match checkedAdd o.reservedThrough 1, checkedAdd o.reservedThrough count with
  | some first, some last => some (first, last)
  | _, _ => none

def referenceGenerationCurrent (o : RecorderWorker layout) (r : ReferenceReservation) : Bool :=
  o.cached.state = .recording && o.pendingActivationGeneration = none &&
    o.cached.activationGeneration = r.generation && o.cached.runNo = r.run && o.cached.intervalNo = r.interval

/-- A receipt is older when its submission clock is behind. -/
def earlier : Option ℕ → Option ℕ → Bool
  | _, none => false
  | none, some _ => true
  | some a, some b => a < b

/-- The state a receipt leaves: a barrier stays pending until its commit, a failure stays. -/
def stateAfter (o : RecorderWorker layout) (receipt : Receipt) : RecordingState :=
  if (o.cached.state = .starting ∧ receipt.state = .idle) ∨ (o.cached.state = .stopping ∧ receipt.state = .recording) ∨
      o.cached.state = .failed then o.cached.state
  else receipt.state

/-- An accepted receipt, after its credit. -/
def adopt (o : RecorderWorker layout) (receipt : Receipt) : RecorderWorker layout :=
  let probed := o.probePending && o.lastProbeRequested.any fun requested =>
    receipt.confirmedSubmission.any (requested ≤ ·)
  { o with
    seenReleased := receipt.released, seenReferenceReleased := receipt.referenceReleased
    pendingActivationGeneration := o.pendingActivationGeneration.filter (receipt.activationGeneration < ·)
    periodicPending := o.periodicPending.filter (receipt.persisted < ·)
    probePending := o.probePending && !probed
    cached := { o.cached with
      persistedThroughSequence := receipt.persisted, confirmedSubmission := receipt.confirmedSubmission
      runNo := receipt.runNo, intervalNo := receipt.intervalNo
      terminalSealCommitted := receipt.terminalSealCommitted, activationRoot := receipt.activationRoot
      activationGeneration := receipt.activationGeneration, failurePersisted := receipt.failurePersisted
      state := o.stateAfter receipt
      coverage := if receipt.state = .failed ∧ o.cached.coverage = .complete ∧ receipt.runNo.isSome then .unknownTail
        else o.cached.coverage
      firstError := o.cached.firstError <|> receipt.firstError } }

end RecorderWorker

/-! ### Calls -/

/-- How the worker interleaves with a call: its moves at each shared access, whether each lock is
free, and what the clock reads. -/
structure Schedule where
  moves : List (List WorkerMove)
  locks : List Bool
  times : List ℕ
  deriving Repr

structure System (layout : FactLayout) where
  owner : RecorderWorker layout
  storage : Storage
  schedule : Schedule
  /-- an `expect` or an unsigned subtraction of the owner has failed -/
  panicked : Bool
  deriving Repr

inductive Abort
  | rejected (error : StorageError)
  | panicked
  deriving DecidableEq, Repr

inductive Transfer
  | sent | full | disconnected
  deriving DecidableEq, Repr

section Calls

variable {layout : FactLayout}

abbrev Step (layout : FactLayout) := Procedure (System layout) Abort

def reject {α : Type} (error : StorageError) : Step layout α := Procedure.stop (.rejected error)

def owner : Step layout (RecorderWorker layout) := do return (← get).owner

def update (f : RecorderWorker layout → RecorderWorker layout) : Step layout Unit :=
  modify fun s => { s with owner := f s.owner }

/-- A value the source unwraps. -/
def expect {α : Type} (value : Option α) : Step layout α :=
  match value with
  | some a => pure a
  | none => do
    modify fun s => { s with panicked := true }
    Procedure.stop .panicked

/-- The worker takes the moves its schedule has for this point. -/
def yield : Step layout Unit :=
  modify fun s => { s with
    storage := (s.schedule.moves.headD []).foldl Storage.work s.storage
    schedule := { s.schedule with moves := s.schedule.moves.tail } }

def tryLock : Step layout Bool := do
  yield
  let s ← get
  set { s with schedule := { s.schedule with locks := s.schedule.locks.tail } }
  return s.schedule.locks.headD true

def now : Step layout ℕ := do
  let s ← get
  set { s with schedule := { s.schedule with times := s.schedule.times.tail } }
  return s.schedule.times.headD 0

/-- `try_send`, with what the owner notes once the channel has taken the message. Only the owner
reads its fields, so it makes no difference whether it changes them before or after the transfer. -/
def transfer (message : Message) (accepted : RecorderWorker layout → RecorderWorker layout) : Step layout Transfer := do
  yield
  let s ← get
  if !s.storage.phase.receiving then return .disconnected
  else if fifoCapacity ≤ s.storage.queue.length then
    set { s with storage := { s.storage with refused := s.storage.refused ++ [message] } }
    return .full
  else
    set { s with owner := accepted s.owner, storage := { s.storage with queue := s.storage.queue ++ [message] } }
    return .sent

/-- The receipt, where its lock is free. -/
def cloneReceipt : Step layout (Option Receipt) := do
  if ← tryLock then return some (← get).storage.receipt else return none

def fail (message : StorageError) : Step layout Unit := do
  update (·.failing message)
  if ← tryLock then modify fun s => { s with storage := s.storage.post (·.fail message) }

def sendControl (message : Message) (accepted : RecorderWorker layout → RecorderWorker layout) : Step layout Unit := do
  match ← transfer message accepted with
  | .sent => return ()
  | _ => do
    fail "recorder lifecycle slot unavailable"
    reject "recorder lifecycle slot unavailable"

def failWithGap (gap : RecorderGap) : Step layout Unit := do
  let o ← owner
  if o.gapScheduled ∨ o.cached.state = .failed then return ()
  else if ¬ gap.valid then fail "invalid recorder failure seal"
  else
    update (·.noteGap gap)
    fail gap.reason
    match (← owner).plannedRange 1 with
    | none => return ()
    | some (first, last) =>
      let _ ← transfer (.gapSeal gap first) fun o => { o with reservedThrough := last, gapScheduled := true }
      return ()

def plan (count : ℕ) : Step layout (ℕ × ℕ) := do
  match (← owner).plannedRange count with
  | some range => return range
  | none => reject "record identity exhausted"

/-! ### Receipts -/

def submittedReferenceCredit : Step layout Credit := do
  let o ← owner
  expect (o.referenceCredit.delta o.unusedReference)

/-- A receipt that is neither stale nor from the future releases its credit. -/
def releaseReceipt (receipt : Receipt) : Step layout Unit := do
  let o ← owner
  match receipt.released.delta o.seenReleased with
  | none => fail "regressing storage receipt"
  | some total => match receipt.referenceReleased.delta o.seenReferenceReleased with
    | none => fail "regressing Reference credit receipt"
    | some reference =>
      let ordinaryCredit ← expect (o.charged.delta o.referenceCredit)
      match o.charged.delta total, total.delta reference with
      | some charged, some ordinary =>
        let submitted ← submittedReferenceCredit
        if submitted.contains reference ∧ ordinaryCredit.contains ordinary then
          let referenceCredit ← expect (o.referenceCredit.delta reference)
          update fun o => { o with charged, referenceCredit }.adopt receipt
        else fail "future storage receipt"
      | _, _ => fail "future storage receipt"

def applyReceipt (receipt : Receipt) : Step layout Unit := do
  let o ← owner
  if receipt.persisted < o.cached.persistedThroughSequence then return ()
  else if o.reservedThrough < receipt.persisted then fail "future storage record receipt"
  else if receipt.confirmedSubmission.any fun confirmed => o.lastOwnerSubmission.all (· < confirmed) then
    fail "future storage submission receipt"
  else if RecorderWorker.earlier receipt.confirmedSubmission o.cached.confirmedSubmission then return ()
  else releaseReceipt receipt

def RecordingState.settled : RecordingState → Bool
  | .closed => true
  | .failed => true
  | _ => false

/-- Completion is observed before liveness: a finished worker that is still alive has panicked. -/
def observeWorker : Step layout Bool := do
  yield
  let finished := (← get).storage.finished
  yield
  let alive := (← get).storage.alive
  if alive && finished then
    fail "storage worker panicked"
    return true
  else return !alive

/-- The worker may have closed after the first look at its receipt. -/
def readFinalReceipt : Step layout Unit := do
  match ← cloneReceipt with
  | some receipt =>
    applyReceipt receipt
    if !(← owner).cached.state.settled then fail "recorder worker exited unexpectedly"
  | none => return ()

def applyFresh (fresh : Option Receipt) : Step layout Unit :=
  match fresh with
  | some receipt => applyReceipt receipt
  | none => return ()

def reconcileReceipt (fresh : Option Receipt) : Step layout RecordingStatus := do
  applyFresh fresh
  let workerClosed ← observeWorker
  if workerClosed && !(← owner).cached.state.settled then readFinalReceipt
  update fun o => { o.showOutstanding with cached := { o.showOutstanding.cached with workerClosed } }
  return (← owner).cached

def periodicInterval : ℕ := fromSecs 1

def schedulePeriodic : Step layout Unit := do
  let o ← owner
  if o.periodicPending.isSome ∨ o.finishRequested ∨ ¬ (o.cached.state = .idle ∨ o.cached.state = .recording) then
    return ()
  else
    let time ← now
    if time - o.lastPeriodic < periodicInterval then return ()
    else match o.plannedRange 1 with
      | none => fail "clock record identity exhausted"
      | some (first, last) =>
        let _ ← transfer (.clockAnchor first) fun o =>
          { o with reservedThrough := last, lastPeriodic := time, periodicPending := some first }
        return ()

/-- Cancelled jobs give their slots back once no lock is contended. -/
def drainHistoryCancellations : Step layout Unit := do
  if (← owner).pendingCancellations = [] then return ()
  else if ← tryLock then if ← tryLock then if ← tryLock then
    modify fun s =>
      let cancelled := s.owner.pendingCancellations
      { s with
        owner := { s.owner with pendingCancellations := [] }
        storage := { s.storage with
          activeHistoryJobs := s.storage.activeHistoryJobs.filter (· ∉ cancelled)
          historyMailbox := s.storage.historyMailbox.filter (· ∉ cancelled)
          runsMailbox := s.storage.runsMailbox.filter (· ∉ cancelled) } }

def poll : Step layout RecordingStatus := do
  drainHistoryCancellations
  let fresh ← cloneReceipt
  let status ← reconcileReceipt fresh
  schedulePeriodic
  return status

end Calls
end LabRuntime.Recorder
