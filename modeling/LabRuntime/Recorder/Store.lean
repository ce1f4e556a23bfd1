import LabRuntime.Recorder.Message

/-! The worker's SQLite store, one definition a transaction. Counters are checked `u64`s; a
transaction that stops leaves the store as it was. Disk faults and the checks of a payload's
encoding are not here: any transaction may fail for them. -/

namespace LabRuntime.Recorder

inductive Coverage
  | complete | unknownTail | gap
  deriving DecidableEq, Repr

inductive RunState
  | recording | sealed | failed
  deriving DecidableEq, Repr

/-- A run and its one interval; their rows always change together. -/
structure RunRow where
  runNo : ℕ
  intervalNo : ℕ
  label : String
  policy : RecordingPolicy
  state : RunState
  coverage : Coverage
  deriving DecidableEq, Repr

inductive RecordKind
  | boundarySnapshot
  | clockAnchor
  | fact (fact : Fact)
  | operation (operation : OperationRecord)
  | annotation (note : AnnotationRecord)
  | recorderGap (gap : RecorderGap)
  | intervalSeal
  | configurationLifecycle (lifecycle : LiveActivation)
  | shutdown
  deriving DecidableEq, Repr

/-- A row of `records` of this boot. -/
structure RecordRow where
  recordSeq : ℕ
  runNo : Option ℕ
  kind : RecordKind
  deriving DecidableEq, Repr

/-- The boot's row of `durable_checkpoints`. -/
structure Checkpoint where
  commitNo : ℕ
  persistedThroughSeq : ℕ
  coverage : Coverage
  lastProbeAt : Option ℕ
  deriving DecidableEq, Repr

/-- `nextRecordSequence` is the last committed record number, as in the source. -/
structure SqliteStore where
  runNo : Option ℕ
  intervalNo : Option ℕ
  nextRunNo : ℕ
  nextIntervalNo : ℕ
  nextRecordSequence : ℕ
  commitNo : ℕ
  nextActivationNo : ℕ
  nextAnchorNo : ℕ
  coverageGap : Bool
  bootSealed : Bool
  records : List RecordRow
  runs : List RunRow
  checkpoint : Checkpoint
  deriving Repr

/-- What a transaction needs. -/
def require (condition : Prop) [Decidable condition] (error : StorageError) : Except StorageError Unit :=
  if condition then .ok () else .error error

/-- The next identity of a counter. -/
def following (n : ℕ) (error : StorageError) : Except StorageError ℕ :=
  match checkedAdd n 1 with
  | some next => .ok next
  | none => .error error

@[simp] theorem require_bind {α : Type} {condition : Prop} [Decidable condition] {error : StorageError}
    {f : Unit → Except StorageError α} {a : α} :
    (require condition error >>= f) = .ok a ↔ condition ∧ f () = .ok a := by
  unfold require
  split_ifs with h
  · exact ⟨fun heq => ⟨h, heq⟩, fun heq => heq.2⟩
  · exact ⟨nofun, fun heq => absurd heq.1 h⟩

@[simp] theorem following_bind {α : Type} {n : ℕ} {error : StorageError} {f : ℕ → Except StorageError α} {a : α} :
    (following n error >>= f) = .ok a ↔ n + 1 ≤ u64Max ∧ f (n + 1) = .ok a := by
  unfold following checkedAdd
  split_ifs with h
  · exact ⟨fun heq => ⟨h, heq⟩, fun heq => heq.2⟩
  · exact ⟨nofun, fun heq => absurd heq.1 h⟩

namespace SqliteStore

/-- A new boot. -/
def opened : SqliteStore :=
  { runNo := none, intervalNo := none, nextRunNo := 1, nextIntervalNo := 1, nextRecordSequence := 0, commitNo := 0
    nextActivationNo := 1, nextAnchorNo := 2, coverageGap := false, bootSealed := false, records := [], runs := []
    checkpoint := { commitNo := 0, persistedThroughSeq := 0, coverage := .complete, lastProbeAt := none } }

def row (store : SqliteStore) (recordSeq : ℕ) (kind : RecordKind) : RecordRow := { recordSeq, runNo := store.runNo, kind }

/-- The rows of a run under a new state and coverage. -/
def sealRun (store : SqliteStore) (runNo : ℕ) (change : RunRow → RunRow) : List RunRow :=
  store.runs.map fun run => if run.runNo = runNo then change run else run

/-- Rows and checkpoint of a transaction that ends at the record `through`. -/
def commit (store : SqliteStore) (rows : List RecordRow) (through : ℕ) : SqliteStore :=
  { store with
    nextRecordSequence := through, commitNo := store.commitNo + 1, records := store.records ++ rows
    checkpoint := { store.checkpoint with commitNo := store.commitNo + 1, persistedThroughSeq := through } }

def startRun (store : SqliteStore) (label : String) (policy : RecordingPolicy) (boundary : BoundarySnapshot)
    (firstRecord : ℕ) : Except StorageError SqliteStore := do
  require (checkedAdd store.nextRecordSequence 1 = some firstRecord) "start record reservation mismatch"
  require (store.runNo = none ∧ label.utf8ByteSize ≤ 128 ∧ ¬ isBlank label ∧ boundary.valid)
    "invalid or overlapping recording run"
  let followingRun ← following store.nextRunNo "run identity exhausted"
  let followingInterval ← following store.nextIntervalNo "interval identity exhausted"
  let boundaryRecord ← following store.nextRecordSequence "boundary record identity exhausted"
  let anchorRecord ← following boundaryRecord "start anchor record identity exhausted"
  let nextAnchor ← following store.nextAnchorNo "start clock anchor identity exhausted"
  let _ ← following store.commitNo "boundary commit identity exhausted"
  let run := some store.nextRunNo
  let opened : RunRow :=
    { runNo := store.nextRunNo, intervalNo := store.nextIntervalNo, label, policy, state := .recording
      coverage := .complete }
  let stored := store.commit
    [{ recordSeq := boundaryRecord, runNo := run, kind := .boundarySnapshot },
     { recordSeq := anchorRecord, runNo := run, kind := .clockAnchor }] anchorRecord
  return { stored with
    runs := store.runs ++ [opened]
    checkpoint := { stored.checkpoint with coverage := .complete }
    runNo := run, intervalNo := some store.nextIntervalNo, nextRunNo := followingRun
    nextIntervalNo := followingInterval, nextAnchorNo := nextAnchor }

/-- The rows of consecutive facts after the record `last`. -/
def factRows (runNo : Option ℕ) (last : ℕ) : List Fact → List RecordRow
  | [] => []
  | fact :: facts => { recordSeq := last + 1, runNo, kind := .fact fact } :: factRows runNo (last + 1) facts

def appendGroupsWithTerminal (store : SqliteStore) (groups : List (List Fact)) (terminal : Option OperationRecord) :
    Except StorageError SqliteStore := do
  let facts := groups.flatten
  require (groups ≠ [] ∧ groups.length ≤ 4 ∧ ¬ (facts.length = 0 ∧ terminal = none) ∧
      facts.length + (if terminal.isSome then 1 else 0) ≤ 256 ∧
      ¬ (terminal = none ∧ groups.any List.isEmpty) ∧ store.runNo ≠ none)
    "invalid or oversized recording batch"
  let _ ← following store.commitNo "commit identity exhausted"
  let lastFact := store.nextRecordSequence + facts.length
  require (lastFact ≤ u64Max) "record identity exhausted"
  let rows := factRows store.runNo store.nextRecordSequence facts
  match terminal with
  | none => return store.commit rows lastFact
  | some operation =>
    let sequence ← following lastFact "operation record identity exhausted"
    return store.commit (rows ++ [store.row sequence (.operation operation)]) sequence

def appendFactGroups (store : SqliteStore) (groups : List (List Fact)) (firstRecord : ℕ) :
    Except StorageError SqliteStore := do
  require (checkedAdd store.nextRecordSequence 1 = some firstRecord) "fact record reservation mismatch"
  store.appendGroupsWithTerminal groups none

def appendReferenceCompletion (store : SqliteStore) (fact : Option Fact) (terminal : OperationRecord) (firstRecord : ℕ) :
    Except StorageError SqliteStore := do
  require (checkedAdd store.nextRecordSequence 1 = some firstRecord ∧ terminal.valid ∧
      (terminal.command = "reference_retune" ∨ terminal.command = "reference_configure") ∧
      (terminal.phase = "completed" ∨ terminal.phase = "failed") ∧ fact.all Fact.isReference)
    "invalid Reference completion group"
  store.appendGroupsWithTerminal [fact.toList] (some terminal)

def appendOperation (store : SqliteStore) (operation : OperationRecord) (recordSeq : ℕ) :
    Except StorageError SqliteStore := do
  require (checkedAdd store.nextRecordSequence 1 = some recordSeq) "operation record reservation mismatch"
  require ((store.runNo ≠ none ∨ operation.stopTerminal) ∧ operation.valid) "invalid operation recording fact"
  let sequence ← following store.nextRecordSequence "operation record identity exhausted"
  let _ ← following store.commitNo "operation commit identity exhausted"
  return store.commit [store.row sequence (.operation operation)] sequence

def appendAnnotation (store : SqliteStore) (note : AnnotationRecord) (recordSeq : ℕ) :
    Except StorageError SqliteStore := do
  require (store.runNo ≠ none ∧ note.valid ∧ checkedAdd store.nextRecordSequence 1 = some recordSeq)
    "annotation reservation or interval invalid"
  let _ ← following store.commitNo "annotation commit identity exhausted"
  return store.commit [store.row recordSeq (RecordKind.annotation note)] recordSeq

def appendClockAnchor (store : SqliteStore) (recordSeq : ℕ) : Except StorageError SqliteStore := do
  require (checkedAdd store.nextRecordSequence 1 = some recordSeq) "clock record reservation mismatch"
  let next ← following store.nextAnchorNo "clock anchor identity exhausted"
  let sequence ← following store.nextRecordSequence "clock record identity exhausted"
  let _ ← following store.commitNo "clock commit identity exhausted"
  return { store.commit [store.row sequence .clockAnchor] sequence with nextAnchorNo := next }

/-- A progress marker: a commit without a record. -/
def probe (store : SqliteStore) (submittedAt : ℕ) : Except StorageError SqliteStore := do
  require (store.runNo ≠ none) "progress probe outside recording"
  let nextCommit ← following store.commitNo "commit identity exhausted"
  return { store with
    commitNo := nextCommit
    checkpoint := { store.checkpoint with commitNo := nextCommit, lastProbeAt := some submittedAt } }

def Summary.validStop (summary : Summary) : Bool :=
  summary.len ≤ 16 * 1024 - 512 && summary.isObject && summary.pendingOperations.any (· ≤ 64)

def stopRun (store : SqliteStore) (summary : Summary) (firstRecord : ℕ) : Except StorageError SqliteStore := do
  require (checkedAdd store.nextRecordSequence 1 = some firstRecord) "stop record reservation mismatch"
  let some runNo := store.runNo | throw "no active recording run"
  require (Summary.validStop summary) "invalid bounded stop summary"
  let anchorRecord ← following store.nextRecordSequence "end anchor record identity exhausted"
  let sealRecord ← following anchorRecord "interval seal identity exhausted"
  let _ ← following store.commitNo "interval seal commit identity exhausted"
  let nextAnchor ← following store.nextAnchorNo "end clock anchor identity exhausted"
  return { store.commit [store.row anchorRecord .clockAnchor, store.row sealRecord .intervalSeal] sealRecord with
    runs := store.sealRun runNo fun run => { run with state := .sealed }
    nextAnchorNo := nextAnchor, runNo := none, intervalNo := none }

def failRun (store : SqliteStore) (gap : RecorderGap) (recordSeq : ℕ) : Except StorageError SqliteStore := do
  require (checkedAdd store.nextRecordSequence 1 = some recordSeq) "gap record reservation mismatch"
  require gap.valid "invalid bounded recorder gap"
  let some runNo := store.runNo | throw "gap seal without active run"
  let sequence ← following store.nextRecordSequence "gap record identity exhausted"
  let _ ← following store.commitNo "gap commit identity exhausted"
  let stored := store.commit [store.row sequence (.recorderGap gap)] sequence
  return { stored with
    runs := store.sealRun runNo fun run => { run with state := .failed, coverage := .gap }
    checkpoint := { stored.checkpoint with coverage := .gap }
    runNo := none, intervalNo := none, coverageGap := true }

def finishBoot (store : SqliteStore) (evidence : Summary) (firstRecord : ℕ) : Except StorageError SqliteStore := do
  require (checkedAdd store.nextRecordSequence 1 = some firstRecord) "finish record reservation mismatch"
  require (store.runNo = none ∧ ¬ store.bootSealed) "boot finish requires a stopped, unsealed recorder"
  require (evidence.len ≤ 16 * 1024 ∧ evidence.isObject) "invalid bounded shutdown evidence"
  let anchorRecord ← following store.nextRecordSequence "terminal clock identity exhausted"
  let nextAnchor ← following store.nextAnchorNo "terminal anchor identity exhausted"
  let shutdownRecord ← following anchorRecord "terminal record identity exhausted"
  let _ ← following store.commitNo "terminal commit identity exhausted"
  return { store.commit [{ recordSeq := anchorRecord, runNo := none, kind := .clockAnchor },
      { recordSeq := shutdownRecord, runNo := none, kind := .shutdown }] shutdownRecord with
    nextAnchorNo := nextAnchor, bootSealed := true }

def commitActivation (store : SqliteStore) (lifecycle : Option LiveActivation) : Except StorageError SqliteStore := do
  match lifecycle with
  | none =>
    let next ← following store.nextActivationNo "activation identity exhausted"
    return { store with nextActivationNo := next }
  | some live =>
    require (live.record.valid ∧ live.generation ≠ 0 ∧
        checkedAdd store.nextRecordSequence 1 = some live.assigned) "invalid configuration lifecycle record"
    let _ ← following store.commitNo "lifecycle commit identity exhausted"
    let next ← following store.nextActivationNo "activation identity exhausted"
    return { store.commit [store.row live.assigned (.configurationLifecycle live)] live.assigned with
      nextActivationNo := next }

end SqliteStore
end LabRuntime.Recorder
