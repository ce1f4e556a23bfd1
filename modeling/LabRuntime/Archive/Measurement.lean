import LabRuntime.Lib.BigEndian
import LabRuntime.Lib.Checks
import LabRuntime.Lib.Decimal
import LabRuntime.Signal

/-! How a committed measurement is stored as one row of nullable columns with a JSON envelope
for its lineage, and how such a row is decoded. The JSON library's number printing and its
parser are parameters. -/

namespace LabRuntime.Archive

abbrev StorageError := String

/-- Frozen transform input identity and original observation time. -/
structure CapturedInput where
  signal : SignalId
  value : F64
  unit : EngineeringUnit
  time : ℕ
  freshnessTime : ℕ
  sourceGeneration : ℕ
  sourceRevision : ℕ
  sourceStateRevision : Option ℕ

/-- A measurement fact with its provenance. -/
structure MeasurementFact where
  sequence : ℕ
  sample : Sample
  generation : ℕ
  revision : ℕ
  stateRevision : Option ℕ
  lineage : Option CapturedInput

/-! ### Integers in blobs and in text -/

def u64Blob (value : ℕ) : List UInt8 := BigEndian.bytes 8 value

def durationBlob (value : ℕ) : Except StorageError (List UInt8) :=
  if u64Max < value then .error "monotonic time exceeds version-one range" else .ok (u64Blob value)

/-- Why a row cannot be decoded. -/
inductive RowError where
  | invalidQuery
  | invalidColumn (index : ℕ)
deriving DecidableEq, Repr

def readU64Blob (bytes : List UInt8) : Except RowError ℕ :=
  if bytes.length = 8 then .ok (BigEndian.value bytes) else .error .invalidQuery

/-- `str::parse::<u64>`: decimal digits, perhaps after one plus sign. -/
def parseU64 (text : String) : Except RowError ℕ :=
  let digits := if text.toList.head? = some '+' then text.toList.tail else text.toList
  let n := Nat.ofDigitChars 10 digits 0
  if digits = [] ∨ digits.all Char.isDigit = false ∨ u64Max < n then .error .invalidQuery else .ok n

/-- `map(f).transpose()`. -/
def transpose {ε α β : Type} (f : α → Except ε β) : Option α → Except ε (Option β)
  | none => .ok none
  | some a => do
    let b ← f a
    .ok (some b)

/-! ### The lineage envelope -/

structure StoredLineage where
  version : ℕ
  instrument : String
  parameter : String
  value : F64
  unit : String
  publishedAtNs : String
  observedAtNs : String
  sourceGeneration : String
  sourceRevision : String
  sourceStateRevision : Option String

def StoredLineage.of (input : CapturedInput) : StoredLineage where
  version := 1
  instrument := input.signal.instrument.repr
  parameter := input.signal.parameter.repr
  value := input.value
  unit := input.unit.id
  publishedAtNs := input.time.repr
  observedAtNs := input.freshnessTime.repr
  sourceGeneration := input.sourceGeneration.repr
  sourceRevision := input.sourceRevision.repr
  sourceStateRevision := input.sourceStateRevision.map Nat.repr

def hexDigit (n : ℕ) : Char := "0123456789abcdef".toList.getD n '0'

def jsonEscape (c : Char) : List Char :=
  if c = '"' then ['\\', '"']
  else if c = '\\' then ['\\', '\\']
  else if c.toNat = 0x08 then ['\\', 'b']
  else if c.toNat = 0x09 then ['\\', 't']
  else if c.toNat = 0x0a then ['\\', 'n']
  else if c.toNat = 0x0c then ['\\', 'f']
  else if c.toNat = 0x0d then ['\\', 'r']
  else if c.toNat < 0x20 then ['\\', 'u', '0', '0', hexDigit (c.toNat / 16), hexDigit (c.toNat % 16)]
  else [c]

def jsonString (s : String) : String := "\"" ++ String.ofList (s.toList.flatMap jsonEscape) ++ "\""

/-- The JSON library: how it prints a finite number, and its parser for the envelope. -/
structure LineageJson where
  number : F64 → String
  fromSlice : List UInt8 → Option StoredLineage

/-- The members of a compact object; the keys have nothing to escape. -/
def jsonFields : List (String × String) → String
  | [] => ""
  | [(key, value)] => "\"" ++ key ++ "\":" ++ value
  | (key, value) :: fields => "\"" ++ key ++ "\":" ++ value ++ "," ++ jsonFields fields

/-- The fields in declaration order, with their serialized values. -/
def LineageJson.fields (json : LineageJson) (s : StoredLineage) : List (String × String) :=
  [("version", s.version.repr),
   ("instrument", jsonString s.instrument),
   ("parameter", jsonString s.parameter),
   ("value", json.number s.value),
   ("unit", jsonString s.unit),
   ("published_at_ns", jsonString s.publishedAtNs),
   ("observed_at_ns", jsonString s.observedAtNs),
   ("source_generation", jsonString s.sourceGeneration),
   ("source_revision", jsonString s.sourceRevision),
   ("source_state_revision", (s.sourceStateRevision.map jsonString).getD "null")]

/-- The compact serialization. -/
def LineageJson.toText (json : LineageJson) (s : StoredLineage) : String :=
  "\x7b" ++ jsonFields (json.fields s) ++ "\x7d"

def utf8 (text : String) : List UInt8 := text.toUTF8.data.toList

def LineageJson.toVec (json : LineageJson) (s : StoredLineage) : List UInt8 := utf8 (json.toText s)

/-- The parser reads this envelope back as it was printed. -/
def LineageJson.ReadsBack (json : LineageJson) (s : StoredLineage) : Prop := json.fromSlice (json.toVec s) = some s

/-- A finite number takes at most 24 bytes. -/
def LineageJson.ShortNumbers (json : LineageJson) : Prop :=
  ∀ x : F64, x.isFinite = true → (json.number x).utf8ByteSize ≤ 24

def encodeLineage (json : LineageJson) (input : CapturedInput) : Except StorageError (List UInt8) :=
  if input.value.isFinite = false ∨ input.sourceGeneration = 0 ∨ input.sourceRevision = 0 ∨
      input.time < input.freshnessTime then
    .error "invalid captured input lineage"
  else
    let encoded := json.toVec (StoredLineage.of input)
    if 512 < encoded.length then .error "captured input lineage exceeds record bound" else .ok encoded

structure MeasurementLineage where
  signal : SignalId
  value : F64
  unit : String
  publishedAt : ℕ
  observedAt : ℕ
  sourceGeneration : ℕ
  sourceRevision : ℕ
  sourceStateRevision : Option ℕ
deriving DecidableEq, Repr

def decodeLineage (json : LineageJson) (bytes : List UInt8) : Except RowError MeasurementLineage :=
  if 512 < bytes.length then .error .invalidQuery
  else match json.fromSlice bytes with
  | none => .error .invalidQuery
  | some stored => do
    let published ← parseU64 stored.publishedAtNs
    let observed ← parseU64 stored.observedAtNs
    let sourceGeneration ← parseU64 stored.sourceGeneration
    let sourceRevision ← parseU64 stored.sourceRevision
    let sourceStateRevision ← transpose parseU64 stored.sourceStateRevision
    Checks.reject (stored.version ≠ 1 ∨ stored.value.isFinite = false ∨ sourceGeneration = 0 ∨ sourceRevision = 0 ∨
      published < observed ∨ stored.unit.utf8ByteSize = 0 ∨ 32 < stored.unit.utf8ByteSize) .invalidQuery
    let instrument ← parseU64 stored.instrument
    let parameter ← parseU64 stored.parameter
    .ok ⟨⟨instrument, parameter⟩, stored.value, stored.unit, published, observed, sourceGeneration, sourceRevision,
      sourceStateRevision⟩

/-! ### Admission to storage -/

/-- The arm of `validate_storage_fact` for measurements. -/
def validateStorageFact (json : LineageJson) (m : MeasurementFact) : Except StorageError Unit := do
  Checks.reject (m.sample.value.any fun v => match v with
    | .float number => number.isFinite = false
    | _ => false) "nonfinite measurement fact"
  Checks.reject (m.stateRevision.isSome ∧ m.revision ≠ 1) "managed measurement definition revision is not immutable"
  match m.lineage with
  | none => .ok ()
  | some input => do
    Checks.reject (m.stateRevision.isNone ∨
      (m.sample.quality = .good ∧ m.sample.freshnessTime ≠ input.freshnessTime) ∨ m.sample.time < input.time ∨
      (input.unit == m.sample.unit) = false) "inconsistent transform input lineage"
    let _ ← encodeLineage json input
    .ok ()

/-! ### Rows -/

/-- A value as the database stores it. -/
inductive Cell where
  | null
  | integer (n : ℤ)
  | real (x : F64)
  | text (s : String)
  | blob (bytes : List UInt8)
deriving DecidableEq

structure MeasurementColumns where
  bootId : Cell
  recordSeq : Cell
  runNo : Cell
  instrumentId : Cell
  parameterId : Cell
  generation : Cell
  revision : Cell
  observedAt : Cell
  publishedAt : Cell
  unitKey : Cell
  quality : Cell
  failure : Cell
  valueKind : Cell
  floatValue : Cell
  integerValue : Cell
  boolValue : Cell
  textValue : Cell
  stateRevision : Cell
  lineage : Cell

/-- The constraints of the table. -/
def MeasurementColumns.Admitted (c : MeasurementColumns) : Prop :=
  (∀ cell ∈ [c.bootId, c.recordSeq, c.runNo, c.instrumentId, c.parameterId, c.generation, c.revision, c.observedAt,
    c.publishedAt, c.unitKey, c.quality, c.valueKind], cell ≠ .null) ∧
  (∀ text, c.unitKey = .text text → 1 ≤ text.length ∧ text.length ≤ 64) ∧
  (c.quality = .text "good" ∨ c.quality = .text "unavailable") ∧
  ((c.quality = .text "good" ∧ c.failure = .null ∧ c.valueKind ≠ .text "none") ∨
    (c.quality = .text "unavailable" ∧ c.failure ≠ .null ∧ c.valueKind = .text "none")) ∧
  ((c.valueKind = .text "none" ∧ c.floatValue = .null ∧ c.integerValue = .null ∧ c.boolValue = .null ∧
      c.textValue = .null) ∨
    (c.valueKind = .text "float" ∧ c.floatValue ≠ .null ∧ c.integerValue = .null ∧ c.boolValue = .null ∧
      c.textValue = .null) ∨
    (c.valueKind = .text "integer" ∧ c.floatValue = .null ∧ c.integerValue ≠ .null ∧ c.boolValue = .null ∧
      c.textValue = .null) ∨
    (c.valueKind = .text "boolean" ∧ c.floatValue = .null ∧ c.integerValue = .null ∧
      (c.boolValue = .integer 0 ∨ c.boolValue = .integer 1) ∧ c.textValue = .null) ∨
    ((c.valueKind = .text "text" ∨ c.valueKind = .text "enum") ∧ c.floatValue = .null ∧ c.integerValue = .null ∧
      c.boolValue = .null ∧ c.textValue ≠ .null))

/-- What the row is stored under. -/
structure RowIdentity where
  bootId : List UInt8
  recordSequence : ℕ
  runNo : ℕ

def qualityText : SampleQuality → String
  | .good => "good"
  | .unavailable => "unavailable"

/-- The derived `Debug` name. -/
def failureText : MeasurementFailure → String
  | .disabled => "Disabled"
  | .sensorFault => "SensorFault"
  | .transport => "Transport"
  | .processingWarmup => "ProcessingWarmup"
  | .componentFailure => "ComponentFailure"

def nullable {α : Type} (cell : α → Cell) : Option α → Cell
  | none => .null
  | some a => cell a

/-- The value kind and the value columns of one row. -/
structure StoredValue where
  valueKind : String
  floatValue : Cell
  integerValue : Cell
  boolValue : Cell
  textValue : Cell

/-- The value kind and the four nullable value columns. -/
def valueColumns : Option Value → Except StorageError StoredValue
  | some (.float value) =>
    if value.isFinite then .ok ⟨"float", .real value, .null, .null, .null⟩ else .error "nonfinite measurement"
  | some (.integer value) => .ok ⟨"integer", .null, .integer value, .null, .null⟩
  | some (.boolean value) => .ok ⟨"boolean", .null, .null, .integer (if value then 1 else 0), .null⟩
  | some (.text value) => .ok ⟨"text", .null, .null, .null, .text value⟩
  | some (.enum value) => .ok ⟨"enum", .null, .null, .null, .text value⟩
  | none => .ok ⟨"none", .null, .null, .null, .null⟩

def rowColumns (row : RowIdentity) (m : MeasurementFact) (publishedAt observedAt : List UInt8) (value : StoredValue)
    (lineage : Option (List UInt8)) : MeasurementColumns where
  bootId := .blob row.bootId
  recordSeq := .blob (u64Blob row.recordSequence)
  runNo := .blob (u64Blob row.runNo)
  instrumentId := .blob (u64Blob m.sample.signal.instrument)
  parameterId := .blob (u64Blob m.sample.signal.parameter)
  generation := .blob (u64Blob m.generation)
  revision := .blob (u64Blob m.revision)
  observedAt := .blob observedAt
  publishedAt := .blob publishedAt
  unitKey := .text m.sample.unit.id
  quality := .text (qualityText m.sample.quality)
  failure := nullable (fun reason => .text (failureText reason)) m.sample.failure
  valueKind := .text value.valueKind
  floatValue := value.floatValue
  integerValue := value.integerValue
  boolValue := value.boolValue
  textValue := value.textValue
  stateRevision := nullable (fun revision => .blob (u64Blob revision)) m.stateRevision
  lineage := nullable .blob lineage

def measurementColumns (json : LineageJson) (row : RowIdentity) (m : MeasurementFact) :
    Except StorageError MeasurementColumns := do
  let publishedAt ← durationBlob m.sample.time
  let value ← valueColumns m.sample.value
  let lineage ← transpose (encodeLineage json) m.lineage
  let observedAt ← durationBlob m.sample.freshnessTime
  .ok (rowColumns row m publishedAt observedAt value lineage)

/-- The columns a page query selects, in its order. -/
def MeasurementColumns.selected (c : MeasurementColumns) : List Cell :=
  [c.recordSeq, c.publishedAt, c.observedAt, c.unitKey, c.quality, c.failure, c.valueKind, c.floatValue,
    c.integerValue, c.boolValue, c.textValue, c.generation, c.revision, c.stateRevision, c.lineage]

structure MeasurementRow where
  recordSequence : ℕ
  publishedAt : ℕ
  observedAt : ℕ
  unit : String
  quality : String
  failure : Option String
  value : Option Value
  generation : ℕ
  revision : ℕ
  stateRevision : Option ℕ
  lineage : Option MeasurementLineage
deriving DecidableEq, Repr

def getText (row : List Cell) (index : ℕ) : Except RowError String :=
  match row[index]? with
  | some (.text s) => .ok s
  | _ => .error (.invalidColumn index)

def getInteger (row : List Cell) (index : ℕ) : Except RowError ℤ :=
  match row[index]? with
  | some (.integer n) => .ok n
  | _ => .error (.invalidColumn index)

def getReal (row : List Cell) (index : ℕ) : Except RowError F64 :=
  match row[index]? with
  | some (.real x) => .ok x
  | _ => .error (.invalidColumn index)

def getBlob (row : List Cell) (index : ℕ) : Except RowError (List UInt8) :=
  match row[index]? with
  | some (.blob bytes) => .ok bytes
  | _ => .error (.invalidColumn index)

/-- A nullable column, read by the reader of its type. -/
def getNullable {α : Type} (get : List Cell → ℕ → Except RowError α) (row : List Cell) (index : ℕ) :
    Except RowError (Option α) :=
  match row[index]? with
  | some .null => .ok none
  | _ => do
    let a ← get row index
    .ok (some a)

def getU64 (row : List Cell) (index : ℕ) : Except RowError ℕ := do
  let bytes ← getBlob row index
  readU64Blob bytes

def decodeValue (row : List Cell) : Except RowError (Option Value) := do
  let kind ← getText row 6
  if kind = "none" then .ok none
  else if kind = "float" then do
    let x ← getReal row 7
    .ok (some (.float x))
  else if kind = "integer" then do
    let n ← getInteger row 8
    .ok (some (.integer n))
  else if kind = "boolean" then do
    let n ← getInteger row 9
    .ok (some (.boolean (n ≠ 0)))
  else if kind = "text" then do
    let s ← getText row 10
    .ok (some (.text s))
  else if kind = "enum" then do
    let s ← getText row 10
    .ok (some (.enum s))
  else .error .invalidQuery

def decodeMeasurementRow (json : LineageJson) (row : List Cell) : Except RowError MeasurementRow := do
  let value ← decodeValue row
  let recordSequence ← getU64 row 0
  let publishedAt ← getU64 row 1
  let observedAt ← getU64 row 2
  let unit ← getText row 3
  let quality ← getText row 4
  let failure ← getNullable getText row 5
  let generation ← getU64 row 11
  let revision ← getU64 row 12
  let stateRevision ← getNullable getU64 row 13
  let envelope ← getNullable getBlob row 14
  let lineage ← transpose (decodeLineage json) envelope
  .ok ⟨recordSequence, publishedAt, observedAt, unit, quality, failure, value, generation, revision, stateRevision,
    lineage⟩

end LabRuntime.Archive
