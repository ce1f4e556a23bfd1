import LabRuntime.Archive.Measurement
import LabRuntime.Lib.Keyset
import LabRuntime.Wire.Document
import Mathlib.Data.List.Lex
import Mathlib.Data.Prod.Lex
import Mathlib.Order.Lex

/-! Bounded history queries over the committed rows. A query is its WHERE clause, its ORDER BY and
its LIMIT over the table; blobs are compared byte by byte. The read budget is not here: a query
that exhausts it fails. -/

namespace LabRuntime.Archive

def MAX_RAW_PAGE : ℕ := 128

/-- A row of `runs`; its keys are blobs. -/
structure StoredRun where
  bootId : List UInt8
  runNo : List UInt8
  label : String
  policy : String
  state : String
  coverage : String

/-- A row of `recording_intervals`, as far as history reads it. -/
structure StoredInterval where
  bootId : List UInt8
  runNo : List UInt8
  lossSummary : Option String

/-- A row of `durable_checkpoints`. -/
structure StoredCheckpoint where
  bootId : List UInt8
  persistedThroughSeq : List UInt8

/-- The tables history is read from. -/
structure Database where
  databaseId : String
  runs : List StoredRun
  intervals : List StoredInterval
  measurements : List MeasurementColumns
  checkpoints : List StoredCheckpoint

/-! ### Comparisons of blobs -/

/-- What a blob is compared by. -/
def memcmp (bytes : List UInt8) : List ℕ := bytes.map UInt8.toNat

abbrev BlobKey := List ℕ ×ₗ List ℕ

def blobKey (a b : List UInt8) : BlobKey := toLex (memcmp a, memcmp b)

def Cell.bytes : Cell → List UInt8
  | .blob bytes => bytes
  | _ => []

/-- The columns a measurement page is ordered by. -/
def MeasurementColumns.key (c : MeasurementColumns) : BlobKey := blobKey c.publishedAt.bytes c.recordSeq.bytes

def StoredRun.key (run : StoredRun) : BlobKey := blobKey run.bootId run.runNo

/-- `ORDER BY` two blob columns. -/
def orderBy {α : Type} (key : α → BlobKey) (rows : List α) : List α := rows.insertionSort fun a b => key a ≤ key b

/-! ### Identities as text -/

def hexBoot (bytes : List UInt8) : String :=
  String.ofList (bytes.flatMap fun b => [hexDigit (b.toNat / 16), hexDigit (b.toNat % 16)])

def hexValue (c : Char) : Option ℕ :=
  if '0' ≤ c ∧ c ≤ '9' then some (c.toNat - '0'.toNat)
  else if 'a' ≤ c ∧ c ≤ 'f' then some (c.toNat - 'a'.toNat + 10)
  else none

def hexPairs : List Char → Option (List UInt8)
  | [] => some []
  | [_] => none
  | a :: b :: rest => do
    let high ← hexValue a
    let low ← hexValue b
    let bytes ← hexPairs rest
    some (UInt8.ofNat (high * 16 + low) :: bytes)

def parseBootId (text : String) : Except StorageError (List UInt8) :=
  if text.utf8ByteSize ≠ 32 then .error "boot identity must be 32 lowercase hex digits"
  else match hexPairs text.toList with
  | some bytes => .ok bytes
  | none => .error "boot identity must be 32 lowercase hex digits"

def readBootBlob (bytes : List UInt8) : Except RowError (List UInt8) :=
  if bytes.length = 16 then .ok bytes else .error .invalidQuery

/-- A failed read of a row is an error of the query. -/
def sqlite {α : Type} : Except RowError α → Except StorageError α
  | .ok a => .ok a
  | .error _ => .error "sqlite"

/-! ### Runs -/

structure RunSummary where
  bootId : String
  runNo : ℕ
  label : String
  policy : String
  state : String
  coverage : String
deriving DecidableEq, Repr

structure RunsCursor where
  databaseId : String
  last : List UInt8 × ℕ
  upper : List UInt8 × ℕ
deriving DecidableEq, Repr

structure RunsPage where
  runs : List RunSummary
  nextCursor : Option RunsCursor

def StoredRun.summary (run : StoredRun) : Except RowError RunSummary := do
  let boot ← readBootBlob run.bootId
  let runNo ← readU64Blob run.runNo
  .ok ⟨hexBoot boot, runNo, run.label, run.policy, run.state, run.coverage⟩

def StoredRun.identity (run : StoredRun) : Except RowError (List UInt8 × ℕ) := do
  let boot ← readBootBlob run.bootId
  let runNo ← readU64Blob run.runNo
  .ok (boot, runNo)

def RunSummary.charge (run : RunSummary) : ℕ :=
  192 + run.label.utf8ByteSize + run.policy.utf8ByteSize + run.state.utf8ByteSize + run.coverage.utf8ByteSize

/-- The rows of a page, how many were read for it, and whether one was left over. -/
structure FilledPage (ρ : Type) where
  rows : List ρ
  selectedRows : ℕ
  hasMore : Bool

/-- Rows are read one by one until the limit or the byte budget is met. -/
def fillPage {α ρ : Type} (read : α → Except StorageError ρ) (charge : ρ → ℕ) (limit budget : ℕ) (oversized : StorageError) :
    List α → List ρ → ℕ → ℕ → Except StorageError (FilledPage ρ)
  | [], rows, _, selected => .ok ⟨rows, selected, false⟩
  | a :: rest, rows, bytes, selected => do
    let row ← read a
    if rows.length = limit ∨ budget < bytes + charge row then
      if rows.length = 0 then .error oversized else .ok ⟨rows, selected + 1, true⟩
    else fillPage read charge limit budget oversized rest (rows ++ [row]) (bytes + charge row) (selected + 1)

/-- The rows after the last key and not above the fixed one. -/
def selectRuns (db : Database) (last : Option (List UInt8 × List UInt8)) (upper : List UInt8 × List UInt8)
    (limit : ℕ) : List StoredRun :=
  (orderBy StoredRun.key (db.runs.filter fun run =>
    decide ((∀ l ∈ last, memcmp l.1 < memcmp run.bootId ∨ (memcmp run.bootId = memcmp l.1 ∧ memcmp l.2 < memcmp run.runNo)) ∧
      (memcmp run.bootId < memcmp upper.1 ∨
        (memcmp run.bootId = memcmp upper.1 ∧ memcmp run.runNo ≤ memcmp upper.2))))).take limit

/-- The last key seen and the greatest key of the first page. -/
structure RunBounds where
  last : Option (List UInt8 × ℕ)
  upper : Option (List UInt8 × ℕ)

def runKey (k : List UInt8 × ℕ) : BlobKey := blobKey k.1 (u64Blob k.2)

def runBounds (db : Database) : Option RunsCursor → Except StorageError RunBounds
  | some cursor => do
    Checks.reject (cursor.databaseId ≠ db.databaseId ∨ runKey cursor.upper < runKey cursor.last)
      "run cursor does not match database"
    .ok ⟨some cursor.last, some cursor.upper⟩
  | none => do
    let upper ← sqlite (transpose StoredRun.identity (orderBy StoredRun.key db.runs).getLast?)
    .ok ⟨none, upper⟩

def readHistoryRuns (db : Database) (cursor : Option RunsCursor) (limit : ℕ) : Except StorageError RunsPage := do
  Checks.reject (limit < 1 ∨ 32 < limit) "run page limit must be 1..=32"
  let bounds ← runBounds db cursor
  match bounds.upper with
  | none => .ok ⟨[], none⟩
  | some upper => do
    let selected := selectRuns db (bounds.last.map fun key => (key.1, u64Blob key.2)) (upper.1, u64Blob upper.2) (limit + 1)
    let page ← fillPage (fun run => sqlite (StoredRun.summary run)) RunSummary.charge limit (8 * 1024)
      "whole run exceeds page budget" selected [] 0 0
    -- a row left over follows a returned one
    match page.hasMore, page.rows.getLast? with
    | true, some lastRun => do
      let boot ← parseBootId lastRun.bootId
      .ok ⟨page.rows, some ⟨db.databaseId, (boot, lastRun.runNo), upper⟩⟩
    | _, _ => .ok ⟨page.rows, none⟩

/-! ### Measurements -/

structure HistoryFilter where
  bootId : String
  runNo : ℕ
  instrument : ℕ
  parameter : ℕ
  fromTime : ℕ
  toTime : ℕ
deriving DecidableEq, Repr

structure HistoryCursor where
  filter : HistoryFilter
  databaseId : String
  watermark : ℕ
  last : ℕ × ℕ
  upper : ℕ × ℕ
deriving DecidableEq, Repr

structure HistoryLoss where
  reason : String
  firstMissingFact : Option ℕ
  knownMissingCount : Option ℕ
  lastAcceptedFact : Option ℕ
  cutoff : ℕ
  lastConfirmedRecord : ℕ
deriving DecidableEq, Repr

structure HistoryPage where
  rows : List MeasurementRow
  selectedRows : ℕ
  watermark : ℕ
  nextCursor : Option HistoryCursor
  coverage : String
  loss : Option HistoryLoss

/-- The JSON library's parser for a loss summary. -/
abbrev LossParser := String → Option Wire.Parsed

def lossField (document : Wire.Parsed) (key : String) : Option Wire.Parsed :=
  match document with
  | .object members => members.lookup key
  | _ => none

def lossText (document : Wire.Parsed) (key : String) : Except StorageError String :=
  match lossField document key with
  | some (.string s) => .ok s
  | _ => .error ("archived loss field " ++ key ++ " is invalid")

def lossOptionalId (document : Wire.Parsed) (key : String) : Except StorageError (Option ℕ) :=
  match lossField document key with
  | some .null => .ok none
  | some (.string s) =>
    match parseU64 s with
    | .ok n => .ok (some n)
    | .error _ => .error ("archived loss field " ++ key ++ " is invalid")
  | _ => .error ("archived loss field " ++ key ++ " is invalid")

def lossRequiredId (document : Wire.Parsed) (key : String) : Except StorageError ℕ := do
  let s ← lossText document key
  match parseU64 s with
  | .ok n => .ok n
  | .error _ => .error ("archived loss field " ++ key ++ " is invalid")

def parseHistoryLoss (parser : LossParser) (summary : String) : Except StorageError HistoryLoss :=
  if 4096 < summary.utf8ByteSize then .error "archived loss summary exceeds bound"
  else match parser summary with
  | none => .error "malformed archived loss summary"
  | some document => do
    let reason ← lossText document "reason"
    Checks.reject (reason.utf8ByteSize = 0 ∨ 512 < reason.utf8ByteSize) "archived loss reason is invalid"
    let firstMissingFact ← lossOptionalId document "first_missing_fact"
    let knownMissingCount ← lossOptionalId document "known_missing_count"
    let lastAcceptedFact ← lossOptionalId document "last_accepted_fact"
    let cutoff ← lossRequiredId document "cutoff_monotonic_ns"
    let lastConfirmedRecord ← lossRequiredId document "last_confirmed_record_seq"
    .ok ⟨reason, firstMissingFact, knownMissingCount, lastAcceptedFact, cutoff, lastConfirmedRecord⟩

/-- The coverage of a run, with its loss if it has a gap. -/
def readCoverage (parser : LossParser) (db : Database) (boot runNo : List UInt8) :
    Except StorageError (String × Option HistoryLoss) :=
  match db.runs.find? fun run => run.bootId = boot ∧ run.runNo = runNo with
  | none => .error "unknown archived run"
  | some run =>
    if run.coverage = "gap" then
      match (db.intervals.filter fun i => i.bootId = boot ∧ i.runNo = runNo).take 2 with
      | [interval] =>
        match interval.lossSummary with
        | none => .error "archived gap has no loss summary"
        | some summary => do
          let loss ← parseHistoryLoss parser summary
          .ok (run.coverage, some loss)
      | _ => .error "ambiguous archived gap interval"
    else .ok (run.coverage, none)

def readCheckpoint (db : Database) (boot : List UInt8) : Except StorageError ℕ :=
  match db.checkpoints.find? fun c => c.bootId = boot with
  | none => .error "sqlite"
  | some c => sqlite (readU64Blob c.persistedThroughSeq)

/-- What a page leaves free for the loss it reports. -/
def lossCharge (loss : Option HistoryLoss) : ℕ := (loss.map fun l => 256 + l.reason.utf8ByteSize * 6).getD 0

/-- A UTF-8 byte can become six JSON bytes. -/
def escaped (text : String) : ℕ := text.utf8ByteSize * 6

def MeasurementRow.charge (row : MeasurementRow) : ℕ :=
  256 + escaped row.unit + (row.failure.map escaped).getD 0 +
    (match row.value with
      | some (.text text) => escaped text
      | some (.enum text) => escaped text
      | _ => 0) +
    (if row.stateRevision.isSome then 32 else 0) + (if row.lineage.isSome then 512 else 0)

/-- The filter's columns, as blobs. -/
structure FilterBlobs where
  boot : List UInt8
  runNo : List UInt8
  instrument : List UInt8
  parameter : List UInt8

def HistoryFilter.blobs (filter : HistoryFilter) (boot : List UInt8) : FilterBlobs :=
  ⟨boot, u64Blob filter.runNo, u64Blob filter.instrument, u64Blob filter.parameter⟩

/-- `boot_id=?1 AND run_no=?2 AND instrument_id=?3 AND parameter_id=?4`. -/
def FilterBlobs.Matches (f : FilterBlobs) (c : MeasurementColumns) : Prop :=
  c.bootId = .blob f.boot ∧ c.runNo = .blob f.runNo ∧ c.instrumentId = .blob f.instrument ∧
    c.parameterId = .blob f.parameter

instance (f : FilterBlobs) : DecidablePred f.Matches := fun _ => inferInstanceAs (Decidable (_ ∧ _))

/-- The greatest key in the range that the checkpoint covers. -/
def selectUpper (db : Database) (f : FilterBlobs) (fromBlob toBlob frozen : List UInt8) : Option MeasurementColumns :=
  (orderBy MeasurementColumns.key (db.measurements.filter fun c =>
    decide (f.Matches c ∧ memcmp fromBlob ≤ memcmp c.publishedAt.bytes ∧ memcmp c.publishedAt.bytes < memcmp toBlob ∧
      memcmp c.recordSeq.bytes ≤ memcmp frozen))).getLast?

def selectMeasurements (db : Database) (f : FilterBlobs) (last upper : BlobKey) (frozen : List UInt8) (limit : ℕ) :
    List MeasurementColumns :=
  (orderBy MeasurementColumns.key (db.measurements.filter fun c =>
    decide (f.Matches c ∧ last < c.key ∧ c.key ≤ upper ∧ memcmp c.recordSeq.bytes ≤ memcmp frozen))).take limit

def MeasurementColumns.identity (c : MeasurementColumns) : Except RowError (ℕ × ℕ) := do
  let publishedAt ← getU64 [c.publishedAt, c.recordSeq] 0
  let recordSeq ← getU64 [c.publishedAt, c.recordSeq] 1
  .ok (publishedAt, recordSeq)

/-- Where a page starts and what it is frozen at. -/
structure PageBounds where
  watermark : ℕ
  last : Option (ℕ × ℕ)
  upper : Option (ℕ × ℕ)

def pageBounds (db : Database) (filter : HistoryFilter) (f : FilterBlobs) (fromBlob toBlob : List UInt8)
    (current : ℕ) : Option HistoryCursor → Except StorageError PageBounds
  | some cursor => do
    Checks.reject (cursor.filter ≠ filter ∨ cursor.databaseId ≠ db.databaseId ∨ current < cursor.watermark ∨
      toLex cursor.upper < toLex cursor.last) "history cursor does not match archive/filter"
    .ok ⟨cursor.watermark, some cursor.last, some cursor.upper⟩
  | none => do
    let upper ← sqlite (transpose MeasurementColumns.identity (selectUpper db f fromBlob toBlob (u64Blob current)))
    .ok ⟨current, none, upper⟩

def numberKey (k : ℕ × ℕ) : BlobKey := blobKey (u64Blob k.1) (u64Blob k.2)

/-- Record numbers start at one, so no row at the lower bound is left out. -/
def startKey (fromBlob : List UInt8) (last : Option (ℕ × ℕ)) : BlobKey :=
  match last with
  | some key => numberKey key
  | none => blobKey fromBlob (u64Blob 0)

def readHistoryMeasurements (json : LineageJson) (parser : LossParser) (db : Database) (filter : HistoryFilter)
    (cursor : Option HistoryCursor) (limit : ℕ) : Except StorageError HistoryPage := do
  Checks.reject (limit < 1 ∨ MAX_RAW_PAGE < limit ∨ filter.toTime ≤ filter.fromTime)
    "invalid bounded history range or page limit"
  let boot ← parseBootId filter.bootId
  let f := filter.blobs boot
  let fromBlob ← durationBlob filter.fromTime
  let toBlob ← durationBlob filter.toTime
  let (coverage, loss) ← readCoverage parser db boot f.runNo
  let current ← readCheckpoint db boot
  let bounds ← pageBounds db filter f fromBlob toBlob current cursor
  match bounds.upper with
  | none => .ok ⟨[], 0, bounds.watermark, none, coverage, loss⟩
  | some upper => do
    let selected := selectMeasurements db f (startKey fromBlob bounds.last) (numberKey upper) (u64Blob bounds.watermark)
      (limit + 1)
    let page ← fillPage (fun c => sqlite (decodeMeasurementRow json c.selected)) MeasurementRow.charge limit
      (8 * 1024 - 512 - lossCharge loss) "whole history row exceeds page budget" selected [] 0 0
    match page.hasMore, page.rows.getLast? with
    | true, some lastRow =>
      .ok ⟨page.rows, page.selectedRows, bounds.watermark,
        some ⟨filter, db.databaseId, bounds.watermark, (lastRow.publishedAt, lastRow.recordSequence), upper⟩,
        coverage, loss⟩
    | _, _ => .ok ⟨page.rows, page.selectedRows, bounds.watermark, none, coverage, loss⟩

end LabRuntime.Archive
