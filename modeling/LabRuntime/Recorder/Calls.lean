import LabRuntime.Recorder.Owner

/-! The owner's calls on the recorder: lifecycle and activation, ingress, reserved fact groups, the
reserved Reference operation, and history jobs. -/

namespace LabRuntime.Recorder

variable {layout : FactLayout}

/-! ### Credit checks -/

/-- Ordinary traffic leaves the protected Reference credit free. -/
def ordinaryCapacityAvailable (records bytes : ℕ) : Step layout Bool := do
  let o ← owner
  let free ← expect o.protectedFree
  return o.fitsBeside free records bytes

/-- Release what was charged and never transferred. -/
def release (credit : Credit) (change : RecorderWorker layout → RecorderWorker layout) : Step layout Unit := do
  let charged ← expect ((← owner).charged.delta credit)
  update fun o => { change o with charged }

/-! ### Lifecycle and activation -/

def requestActivation (root : ActivationRoot) : Step layout Unit := do
  let status ← poll
  if status.state ≠ .idle ∨ (← owner).cached.activationRoot.isSome then
    reject "activation requires idle unactivated worker"
  else sendControl (.activation root none) fun o => { o with pendingActivationGeneration := some 1 }

def tryReserveLiveActivation (lifecycle : ConfigurationLifecycleRecord) : Step layout (Option ℕ) := do
  let status ← poll
  let o ← owner
  if ¬ (status.state = .idle ∨ status.state = .recording) ∨ status.activationGeneration = 0 ∨
      o.pendingActivationGeneration.isSome ∨ o.liveActivationReservation.isSome ∨ ¬ lifecycle.valid then
    reject "live activation reservation invalid"
  else match lifecycle.charge with
  | none => reject "live activation credit arithmetic exhausted"
  | some bytes =>
    if !(← ordinaryCapacityAvailable 1 bytes) then return none
    else match checkedAdd status.activationGeneration 1 with
    | none => reject "activation generation exhausted"
    | some generation =>
      update fun o => { o.charge ⟨1, 1, bytes⟩ with
        pendingActivationGeneration := some generation
        liveActivationReservation := some { generation, bytes } }.showOutstanding
      return some generation

def commitReservedLiveActivation (generation : ℕ) (root : ActivationRoot) (lifecycle : ConfigurationLifecycleRecord) :
    Step layout Unit := do
  match (← owner).liveActivationReservation with
  | none => reject "live activation not reserved"
  | some reservation => match lifecycle.charge with
    | none => reject "live activation credit arithmetic exhausted"
    | some charge =>
      if generation ≠ reservation.generation ∨ reservation.bytes < charge ∨ ¬ lifecycle.valid then
        reject "live activation reservation mismatch"
      else
        let (assigned, _) ← plan 1
        let live : LiveActivation :=
          { record := lifecycle, bytes := reservation.bytes, assigned, generation := reservation.generation }
        sendControl (.activation root (some live)) fun o =>
          { o.noteSubmission lifecycle.time with reservedThrough := assigned, liveActivationReservation := none }

/-- The counters are subtracted saturating. -/
def cancelLiveActivationReservation (generation : ℕ) : Step layout Unit := do
  match (← owner).liveActivationReservation with
  | none => reject "live activation not reserved"
  | some reservation =>
    if reservation.generation ≠ generation then reject "live activation reservation mismatch"
    else update fun o => { o with
      charged := ⟨o.charged.groups - 1, o.charged.records - 1, o.charged.bytes - reservation.bytes⟩
      liveActivationReservation := none, pendingActivationGeneration := none }.showOutstanding

def configurePolicy (policy : RecordingPolicy) : Step layout Unit := do
  if (← owner).policyConfigured then reject "recording policy already configured or active"
  else
    let status ← poll
    if status.state ≠ .idle then reject "recording policy already configured or active"
    else update fun o => { o with selectedPolicy := policy, policyConfigured := true }

/-- The source sets `Starting` before the transfer; a failed transfer overwrites it. -/
def requestStart (label : String) (submittedAt : ℕ) (boundary : BoundarySnapshot) : Step layout Unit := do
  let status ← poll
  if status.state ≠ .idle ∨ isBlank label ∨ 128 < label.utf8ByteSize ∨ boundary.time ≠ submittedAt ∨ ¬ boundary.valid then
    reject "invalid recording start"
  else
    let (first, last) ← plan 2
    sendControl (.start label (← owner).selectedPolicy submittedAt boundary first) fun o =>
      { o.setState .starting with
        reservedThrough := last, lastOwnerSubmission := some submittedAt, lastProbeRequested := some submittedAt }

def requestStop (summary : Summary) (requestedAt : ℕ) : Step layout Unit := do
  let status ← poll
  if status.state ≠ .recording ∨ (← owner).referenceCompletion.isSome then reject "recording stop requires active run"
  else if 16 * 1024 - 512 < summary.len then reject "stop summary exceeds reserved seal credit"
  else
    let (first, last) ← plan 2
    sendControl (.stop summary requestedAt first) fun o => { o.setState .stopping with reservedThrough := last }

def probeInterval : ℕ := fromMillis 250

/-- A probe is due when the last one is far enough back; an overflowing sum is never reached. -/
def probeDue (last : Option ℕ) (submittedAt : ℕ) : Bool :=
  last.all fun old => (durationAdd old probeInterval).any (· ≤ submittedAt)

def requestProbe (submittedAt : ℕ) : Step layout Unit := do
  let _ ← poll
  let o ← owner
  if o.cached.state ≠ .recording then reject "progress probe outside recording"
  else if o.probePending ∨ ¬ probeDue o.lastProbeRequested submittedAt then return ()
  else sendControl (.probe submittedAt) fun o =>
    { o.noteSubmission submittedAt with lastProbeRequested := some submittedAt, probePending := true }

def requestFinish (summary : Summary) (time : ℕ) : Step layout Unit := do
  if (← owner).finishRequested then return ()
  else
    let status ← poll
    if ¬ (status.state = .idle ∨ status.state = .failed) ∨ (← owner).referenceCompletion.isSome then
      reject "finish requires idle or failed run"
    else if 16 * 1024 < summary.len then reject "shutdown evidence exceeds 16 KiB"
    else
      let (first, last) ← plan 2
      sendControl (.finish summary time first) fun o => { o with reservedThrough := last, finishRequested := true }

/-! ### Ingress -/

def admissibleState (o : RecorderWorker layout) : Bool := o.cached.state = .starting || o.cached.state = .recording

/-- The gap reported for a group that was not taken. -/
def groupGap (o : RecorderWorker layout) (reason : String) (group : Group) (time : ℕ) : RecorderGap :=
  { reason, time, firstMissingFact := group.facts.head?.map Fact.sequence, knownMissingCount := some group.facts.length
    lastAcceptedFact := o.lastAcceptedFact }

/-- The gap reported for one operation or note that was not taken. -/
def recordGap (o : RecorderWorker layout) (reason : String) (time : ℕ) : RecorderGap :=
  { reason, time, firstMissingFact := none, knownMissingCount := some 1, lastAcceptedFact := o.lastAcceptedFact }

def tryAdmitAt (group : Group) (submittedAt : ℕ) : Step layout (ℕ × ℕ) := do
  let _ ← poll
  let o ← owner
  if ¬ admissibleState o ∨ group.facts = [] ∨ 256 < group.facts.length then reject "recording group not admissible"
  else
    let bytes := group.bytes layout
    let fits ← if group.oversizedRecord ∨ maxGroupBytes < bytes then pure false
      else ordinaryCapacityAvailable group.facts.length bytes
    if !fits then
      failWithGap (groupGap o "recorder ingress capacity exhausted" group submittedAt)
      reject "recorder ingress capacity exhausted"
    else
      let (first, last) ← plan group.facts.length
      let message := Message.facts { facts := group.facts, bytes, submittedAt, firstRecord := first }
      let outcome ← transfer message fun o =>
        { (o.noteSubmission submittedAt).charge ⟨1, group.facts.length, bytes⟩ with
          reservedThrough := last, lastAcceptedFact := group.facts.getLast?.map Fact.sequence }
      match outcome with
      | .sent => return (first, last)
      | .disconnected =>
        fail "recorder worker disconnected"
        reject "recorder worker disconnected"
      | .full =>
        failWithGap (groupGap o "recorder ingress unavailable" group submittedAt)
        reject "recorder ingress unavailable"

def operationAdmissible (o : RecorderWorker layout) (operation : OperationRecord) : Bool :=
  (admissibleState o || (o.cached.state = .idle && operation.stopTerminal)) && operation.valid

def tryAdmitOperation (operation : OperationRecord) : Step layout Unit := do
  let _ ← poll
  let o ← owner
  if ¬ operationAdmissible o operation then reject "operation fact not admissible"
  else
    let operation := operation.compact
    match operation.charge with
    | none => reject "operation credit arithmetic exhausted"
    | some bytes =>
      let fits ← if maxGroupBytes < bytes then pure false else ordinaryCapacityAvailable 1 bytes
      if !fits then
        failWithGap (recordGap o "recorder ingress capacity exhausted" operation.time)
        reject "recorder ingress capacity exhausted"
      else
        let (first, last) ← plan 1
        let outcome ← transfer (.operation operation bytes first) fun o =>
          { (o.noteSubmission operation.time).charge ⟨1, 1, bytes⟩ with reservedThrough := last }
        match outcome with
        | .sent => return ()
        | _ =>
          failWithGap (recordGap o "recorder ingress unavailable" operation.time)
          reject "recorder ingress unavailable"

def operationCreditAvailable (operation : OperationRecord) : Step layout Bool := do
  let _ ← poll
  let o ← owner
  if ¬ operationAdmissible o operation then reject "operation fact not admissible"
  else
    let bytes := operation.scope.len + operation.data.len + 256
    if maxGroupBytes < bytes then reject "operation record exceeds ingress bound"
    else ordinaryCapacityAvailable 1 bytes

def tryAdmitAnnotation (note : AnnotationRecord) : Step layout ℕ := do
  let _ ← poll
  let o ← owner
  if o.cached.state ≠ .recording ∨ ¬ note.valid then reject "annotation outside active interval"
  else match note.charge with
  | none => reject "annotation credit arithmetic exhausted"
  | some bytes =>
    let fits ← if 64 * 1024 < bytes ∨ maxGroupBytes < bytes then pure false else ordinaryCapacityAvailable 1 bytes
    if !fits then
      failWithGap (recordGap o "recorder annotation ingress capacity exhausted" note.time)
      reject "annotation ingress capacity exhausted"
    else
      let (assigned, _) ← plan 1
      let outcome ← transfer (Message.annotation note bytes assigned) fun o =>
        { (o.noteSubmission note.time).charge ⟨1, 1, bytes⟩ with reservedThrough := assigned }
      match outcome with
      | .sent => return assigned
      | _ =>
        failWithGap (recordGap o "recorder annotation ingress unavailable" note.time)
        reject "annotation ingress unavailable"

/-! ### Reserved fact groups -/

def reserveFactGroup : Step layout (Option ℕ) := do
  let status ← poll
  if status.state ≠ .recording then reject "fact reservation requires active recording"
  else if !(← ordinaryCapacityAvailable factGroupCredit.records factGroupCredit.bytes) then return none
  else
    let token := (← owner).nextFactReservation
    match checkedAdd token 1 with
    | none => reject "fact reservation identity exhausted"
    | some next =>
      update fun o => { o.charge factGroupCredit with
        nextFactReservation := next, reservedFactGroups := token :: o.reservedFactGroups }
      return some token

def cancelFactGroup (token : ℕ) : Step layout Unit := do
  if token ∈ (← owner).reservedFactGroups then
    release factGroupCredit fun o => { o with reservedFactGroups := o.reservedFactGroups.erase token }
  else reject "unknown fact reservation"

def admitReservedFacts (token : ℕ) (group : Group) (time : ℕ) : Step layout Unit := do
  cancelFactGroup token
  if group.facts = [] then return ()
  else
    let _ ← tryAdmitAt group time
    return ()

/-! ### The reserved Reference operation -/

def referenceAdmissible (o : RecorderWorker layout) (accepted : OperationRecord) : Bool :=
  o.referenceCompletion.isNone &&
    (accepted.command = "reference_retune" || accepted.command = "reference_configure") &&
    accepted.phase = "accepted" && accepted.outcomeBasis = "application_admission" && accepted.valid &&
    o.cached.state = .recording

/-- The whole credit of a Reference operation: its acceptance and its completion. -/
def operationCredit (layout : FactLayout) (acceptedBytes : ℕ) : Credit :=
  { groups := 2, records := 3, bytes := acceptedBytes + completionBytes layout }

/-- Whether a Reference operation fits: into the limits, and into the protected credit. -/
def referenceFits (o : RecorderWorker layout) (credit : Credit) : Bool :=
  credit.groups ≤ o.limits.groups - o.charged.groups && credit.records ≤ o.limits.records - o.charged.records &&
    credit.bytes ≤ o.limits.bytes - o.charged.bytes &&
    (o.limits ≠ .default ||
      ((protectedCredit layout).delta o.referenceCredit).any fun free => free.contains credit)

def reserveReferenceOperation (accepted : OperationRecord) : Step layout Bool := do
  let _ ← poll
  let o ← owner
  if ¬ referenceAdmissible o accepted then reject "Reference admission reservation invalid"
  else if o.pendingActivationGeneration.isSome then return false
  else
    let accepted := accepted.compact
    match accepted.charge with
    | none => reject "Reference credit arithmetic exhausted"
    | some acceptedBytes =>
      let credit := operationCredit layout acceptedBytes
      if !referenceFits o credit then return false
      else
        let reservation : ReferenceReservation :=
          { scope := accepted.scope.content, seq := accepted.requestSeq, command := accepted.command
            accepted := some accepted, acceptedBytes, generation := o.cached.activationGeneration
            run := o.cached.runNo, interval := o.cached.intervalNo, fact := none, capturedAt := accepted.time }
        update fun o => { o.charge credit with
          referenceCredit := o.referenceCredit + credit, referenceCompletion := some reservation }
        return true

def referenceCompletionReady (scope : String) (seq : ℕ) (command : String) : Step layout Bool := do
  let _ ← poll
  let o ← owner
  return o.referenceCompletion.any fun r =>
    r.scope = scope && r.seq = seq && r.command = command && r.accepted.isNone && o.referenceGenerationCurrent r

/-- Give back Reference credit that was never transferred. -/
def releaseUnusedReference (credit : Credit) (change : RecorderWorker layout → RecorderWorker layout) : Step layout Unit := do
  let referenceCredit ← expect ((← owner).referenceCredit.delta credit)
  release credit fun o => { change o with referenceCredit }

def cancelReferenceReservation : Step layout Unit := do
  match (← owner).referenceCompletion with
  | none => return ()
  | some r => releaseUnusedReference (r.unused layout) fun o => { o with referenceCompletion := none }

/-- The source takes the acceptance out of the reservation before the transfer. -/
def commitReferenceAcceptance (operation : OperationRecord) : Step layout Unit := do
  let _ ← poll
  let o ← owner
  let current := o.referenceCompletion.bind fun r =>
    r.accepted.bind fun a => if o.referenceGenerationCurrent r && a.same operation then some (r, a) else none
  match current with
  | none =>
    cancelReferenceReservation
    fail "Reference acceptance identity or generation mismatch"
    reject "Reference acceptance unavailable"
  | some (r, accepted) => match o.plannedRange 1 with
    | none =>
      cancelReferenceReservation
      reject "record identity exhausted"
    | some (assigned, _) =>
      let taken := { r with accepted := none }
      let outcome ← transfer (.referenceAccepted accepted r.acceptedBytes assigned) fun o =>
        { o.noteSubmission accepted.time with reservedThrough := assigned, referenceCompletion := some taken }
      match outcome with
      | .sent => return ()
      | _ =>
        releaseUnusedReference ⟨1, 1, r.acceptedBytes⟩ fun o => { o with referenceCompletion := some taken }
        cancelReferenceReservation
        fail "Reference acceptance FIFO unavailable"
        reject "Reference acceptance FIFO unavailable"

def captureReferenceCompletion (facts : List Fact) (time : ℕ) : Step layout Unit := do
  let o ← owner
  match o.referenceCompletion with
  | none => reject "Reference completion not reserved"
  | some r =>
    if facts = [] then return ()
    else match facts with
    | [fact] =>
      if r.fact.isSome ∨ ¬ fact.isReference then do
        failWithGap (groupGap o "Reference completion fact bound violated" { facts, spare := 0 } time)
        reject "Reference completion fact bound violated"
      else update fun o => { o with referenceCompletion := some { r with fact := some fact, capturedAt := time } }
    | _ => do
      failWithGap (groupGap o "Reference completion fact bound violated" { facts, spare := 0 } time)
      reject "Reference completion fact bound violated"

def completionMatches (r : ReferenceReservation) (terminal : OperationRecord) : Bool :=
  r.accepted.isNone && terminal.scope.content = r.scope && terminal.requestSeq = r.seq &&
    terminal.command = r.command && terminal.valid && (terminal.phase = "completed" || terminal.phase = "failed") &&
    terminal.outcomeBasis = "domain_result"

/-- The source takes the reservation before the transfer, and gives back the credit of a fact that
was not captured after it. -/
def commitReferenceCompletion (terminal : OperationRecord) : Step layout Unit := do
  let _ ← poll
  let o ← owner
  match o.referenceCompletion.filter fun r => o.referenceGenerationCurrent r && completionMatches r terminal with
  | none =>
    cancelReferenceReservation
    fail "Reference completion identity, generation or storage failure"
    reject "Reference completion unavailable"
  | some r =>
    let terminal := terminal.compact
    let records := 1 + if r.fact.isSome then 1 else 0
    match o.plannedRange records with
    | none =>
      cancelReferenceReservation
      reject "record identity exhausted"
    | some (first, last) =>
      let submittedAt := max terminal.time r.capturedAt
      let lastFact := r.fact.map Fact.sequence
      let surplus : Credit := ⟨0, completionRecords - records, 0⟩
      let referenceCredit ← expect (o.referenceCredit.delta surplus)
      let charged ← expect (o.charged.delta surplus)
      let message := Message.referenceCompletion r.fact r.capturedAt terminal (completionBytes layout) first
      let outcome ← transfer message fun o =>
        { o.noteSubmission submittedAt with
          reservedThrough := last, referenceCompletion := none, referenceCredit, charged
          lastAcceptedFact := lastFact <|> o.lastAcceptedFact }
      match outcome with
      | .sent => return ()
      | _ =>
        let unused : Credit := ⟨1, completionRecords, completionBytes layout⟩
        releaseUnusedReference unused fun o => { o with referenceCompletion := none }
        failWithGap
          { reason := "Reference completion FIFO unavailable", time := submittedAt, firstMissingFact := lastFact
            knownMissingCount := some records, lastAcceptedFact := o.lastAcceptedFact }
        reject "Reference completion FIFO unavailable"

/-! ### History jobs -/

structure HistoryFilter where
  fromTime : ℕ
  toTime : ℕ
  bootId : String
  deriving DecidableEq, Repr

/-- A job takes a slot and sends its message; without a channel slot it gives the slot back. -/
def requestJob (message : ℕ → Message) : Step layout ℕ := do
  let o ← owner
  match checkedAdd o.nextHistoryJob 1 with
  | none => reject "history job identity exhausted"
  | some following =>
    let job := o.nextHistoryJob
    if !(← tryLock) then reject "history slots busy"
    else if maxHistoryJobs ≤ (← get).storage.activeHistoryJobs.length then reject "history slots exhausted"
    else
      modify fun s => { s with
        storage := { s.storage with activeHistoryJobs := s.storage.activeHistoryJobs.insert job } }
      let outcome ← transfer (message job) fun o =>
        { o with nextHistoryJob := following, liveHistoryJobs := o.liveHistoryJobs.insert job }
      match outcome with
      | .sent => return job
      | _ =>
        modify fun s => { s with
          storage := { s.storage with activeHistoryJobs := s.storage.activeHistoryJobs.erase job } }
        reject "history worker busy"

def requestHistory (filter : HistoryFilter) (limit : ℕ) : Step layout ℕ := do
  drainHistoryCancellations
  if (← owner).pendingCancellations ≠ [] then reject "history cancellation pending"
  else if ¬ (1 ≤ limit ∧ limit ≤ 128) ∨ filter.toTime ≤ filter.fromTime ∨ filter.bootId.utf8ByteSize ≠ 32 then
    reject "invalid bounded history request"
  else requestJob .history

def requestRuns (limit : ℕ) : Step layout ℕ := do
  drainHistoryCancellations
  if (← owner).pendingCancellations ≠ [] then reject "history cancellation pending"
  else if ¬ (1 ≤ limit ∧ limit ≤ 32) then reject "invalid run page limit"
  else requestJob .runs

/-- Take a finished page out of its mailbox. -/
def takePage (mailbox : Storage → List ℕ) (without : Storage → Storage) (job : ℕ) : Step layout Bool := do
  drainHistoryCancellations
  if job ∈ (← owner).pendingCancellations then return false
  else if !(← tryLock) then return false
  else if !(← tryLock) then return false
  else if job ∉ mailbox (← get).storage then return false
  else
    modify fun s =>
      let storage := without s.storage
      { s with
        owner := { s.owner with liveHistoryJobs := s.owner.liveHistoryJobs.erase job }
        storage := { storage with activeHistoryJobs := storage.activeHistoryJobs.erase job } }
    return true

def tryTakeHistory (job : ℕ) : Step layout Bool :=
  takePage Storage.historyMailbox (fun s => { s with historyMailbox := s.historyMailbox.erase job }) job

def tryTakeRuns (job : ℕ) : Step layout Bool :=
  takePage Storage.runsMailbox (fun s => { s with runsMailbox := s.runsMailbox.erase job }) job

def cancelHistory (job : ℕ) : Step layout Unit := do
  if job ∈ (← owner).liveHistoryJobs then
    update fun o => { o with
      liveHistoryJobs := o.liveHistoryJobs.erase job, pendingCancellations := o.pendingCancellations.insert job }
    drainHistoryCancellations
  else return ()

/-! ### Runs of calls -/

inductive Call
  | requestActivation (root : ActivationRoot)
  | tryReserveLiveActivation (lifecycle : ConfigurationLifecycleRecord)
  | commitReservedLiveActivation (generation : ℕ) (root : ActivationRoot) (lifecycle : ConfigurationLifecycleRecord)
  | cancelLiveActivationReservation (generation : ℕ)
  | configurePolicy (policy : RecordingPolicy)
  | requestStart (label : String) (submittedAt : ℕ) (boundary : BoundarySnapshot)
  | requestStop (summary : Summary) (requestedAt : ℕ)
  | requestProbe (submittedAt : ℕ)
  | requestFinish (summary : Summary) (time : ℕ)
  | poll
  /-- `reconcile_receipt` with a receipt published earlier, or with none -/
  | reconcileReceipt (published : Option ℕ)
  | tryAdmitAt (group : Group) (submittedAt : ℕ)
  | tryAdmitOperation (operation : OperationRecord)
  | operationCreditAvailable (operation : OperationRecord)
  | tryAdmitAnnotation (note : AnnotationRecord)
  | reserveFactGroup
  | cancelFactGroup (token : ℕ)
  | admitReservedFacts (token : ℕ) (group : Group) (time : ℕ)
  | reserveReferenceOperation (accepted : OperationRecord)
  | referenceCompletionReady (scope : String) (seq : ℕ) (command : String)
  | cancelReferenceReservation
  | commitReferenceAcceptance (operation : OperationRecord)
  | captureReferenceCompletion (facts : List Fact) (time : ℕ)
  | commitReferenceCompletion (terminal : OperationRecord)
  | failWithGap (gap : RecorderGap)
  | requestHistory (filter : HistoryFilter) (limit : ℕ)
  | requestRuns (limit : ℕ)
  | tryTakeHistory (job : ℕ)
  | tryTakeRuns (job : ℕ)
  | cancelHistory (job : ℕ)
  deriving DecidableEq, Repr

/-- Run a step for its effect. -/
def discard {α : Type} (x : Step layout α) : Step layout Unit := do
  let _ ← x
  return ()

def perform : Call → Step layout Unit
  | .requestActivation root => requestActivation root
  | .tryReserveLiveActivation lifecycle => discard (tryReserveLiveActivation lifecycle)
  | .commitReservedLiveActivation generation root lifecycle => commitReservedLiveActivation generation root lifecycle
  | .cancelLiveActivationReservation generation => cancelLiveActivationReservation generation
  | .configurePolicy policy => configurePolicy policy
  | .requestStart label submittedAt boundary => requestStart label submittedAt boundary
  | .requestStop summary requestedAt => requestStop summary requestedAt
  | .requestProbe submittedAt => requestProbe submittedAt
  | .requestFinish summary time => requestFinish summary time
  | .poll => discard Recorder.poll
  | .reconcileReceipt published => do
    let values := (← get).storage.published
    discard (Recorder.reconcileReceipt (published.bind fun n => values[n]?))
  | .tryAdmitAt group submittedAt => discard (tryAdmitAt group submittedAt)
  | .tryAdmitOperation operation => tryAdmitOperation operation
  | .operationCreditAvailable operation => discard (operationCreditAvailable operation)
  | Call.tryAdmitAnnotation note => discard ( tryAdmitAnnotation note)
  | .reserveFactGroup => discard reserveFactGroup
  | .cancelFactGroup token => cancelFactGroup token
  | .admitReservedFacts token group time => admitReservedFacts token group time
  | .reserveReferenceOperation accepted => discard (reserveReferenceOperation accepted)
  | .referenceCompletionReady scope seq command => discard (referenceCompletionReady scope seq command)
  | .cancelReferenceReservation => cancelReferenceReservation
  | .commitReferenceAcceptance operation => commitReferenceAcceptance operation
  | .captureReferenceCompletion facts time => captureReferenceCompletion facts time
  | .commitReferenceCompletion terminal => commitReferenceCompletion terminal
  | .failWithGap gap => failWithGap gap
  | .requestHistory filter limit => discard (requestHistory filter limit)
  | .requestRuns limit => discard (requestRuns limit)
  | .tryTakeHistory job => discard (tryTakeHistory job)
  | .tryTakeRuns job => discard (tryTakeRuns job)
  | .cancelHistory job => cancelHistory job

/-- A call under a schedule of the worker, or a move of the worker between calls. -/
inductive Event
  | call (schedule : Schedule) (call : Call)
  | worker (move : WorkerMove)
  deriving Repr

def System.step (s : System layout) : Event → System layout
  | .call schedule call => ((perform call).run { s with schedule }).2
  | .worker move => { s with storage := s.storage.work move }

/-- The recorder as it is opened at the time `now`. -/
def System.opened (limits : RecorderLimits) (now : ℕ) : System layout :=
  { owner := .opened limits now, storage := .opened, schedule := { moves := [], locks := [], times := [] }
    panicked := false }

end LabRuntime.Recorder
