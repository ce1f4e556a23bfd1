import LabRuntime.SimpleDevice
import LabRuntime.Lib.Checks

/-! The strict schema of simple-device definitions. An untrusted definition is checked here once;
what passes is compiled for every instance that names it. -/

namespace LabRuntime.Simple

open Checks

def maxSimpleDefinitionBytes : ℕ := 8192
def maxSimpleCanonicalBytes : ℕ := 6144
def maxParameters : ℕ := 16
def maxRequestSegments : ℕ := 8
def maxRequestLiteralBytes : ℕ := 32
def maxResponseMatches : ℕ := 8
def maxMatchLiteralBytes : ℕ := 16
def maxNonliteralInserts : ℕ := 4

/-- The bytes of a text. -/
def utf8 (text : String) : List UInt8 := text.toUTF8.data.toList

/-- A definition is refused with a message, or the program indexes outside a buffer. -/
inductive Halt
  | refused (message : String)
  | panicked
  deriving DecidableEq, Repr

/-- `SimpleDefinitionError::new`. -/
def Halt.new (message : String) : Halt := .refused (String.ofList (message.toList.take 256))

abbrev Compiled (α : Type) : Type := Except Halt α

/-- The message of a Core rejection; the checks used here reject a configuration only. -/
def coreMessage : Error → String
  | .invalidConfiguration reason => "invalid configuration: " ++ reason
  | _ => ""

def ofCore {α : Type} : Except Error α → Compiled α
  | .ok a => .ok a
  | .error error => .error (.new (coreMessage error))

theorem ofCore_ok {α : Type} {x : Except Error α} {a : α} : ofCore x = .ok a ↔ x = .ok a := by
  cases x <;> simp [ofCore]

/-! ### Data transfer objects -/

/-- What a JSON number is read as; every other JSON value is `other`. -/
inductive JsonValue
  | posInt (n : ℕ)
  | negInt (z : ℤ)
  | float (x : F64)
  | other
  deriving DecidableEq, Repr

def JsonValue.asI64 : JsonValue → Option ℤ
  | .posInt n => if n < 2 ^ 63 then some n else none
  | .negInt z => some z
  | _ => none

def JsonValue.asF64 : JsonValue → Option F64
  | .posInt n => some (F64.ofInt n)
  | .negInt z => some (F64.ofInt z)
  | .float x => some x
  | .other => none

def JsonValue.ofI64 (z : ℤ) : JsonValue := if z < 0 then .negInt z else .posInt z.toNat

def JsonValue.ofF64 (x : F64) : JsonValue := if x.isFinite then .float x else .other

inductive RoleDto
  | measurement | diagnostic | actuator
  deriving DecidableEq, Repr

inductive AccessDto
  | readOnly | readWrite | writeOnly
  deriving DecidableEq, Repr

inductive ValueTypeDto
  | integer | float
  deriving DecidableEq, Repr

inductive WriteEffectDto
  | none | outputAffecting
  deriving DecidableEq, Repr

/-- `RawEncodingDto` and `ChecksumDto` name the same cases as their Core counterparts. -/
structure EncodingDto where
  raw : SimpleScalarEncoding
  scale : F64
  offset : F64
  deriving DecidableEq, Repr

inductive InstanceFieldDto
  | address | channel
  deriving DecidableEq, Repr

inductive InstanceEncodingDto
  | u8 | u16Le | u16Be
  deriving DecidableEq, Repr

inductive RequestSegmentDto
  | literal (hex : String)
  | instanceField (field : InstanceFieldDto) (encoding : InstanceEncodingDto)
  | valueField
  | checksum (algorithm : SimpleChecksum)
  deriving DecidableEq, Repr

structure RequestDto where
  segments : List RequestSegmentDto
  deriving DecidableEq, Repr

inductive ResponseMatchDto
  | literalMatch (offset : ℕ) (hex : String)
  | instanceMatch (offset : ℕ) (field : InstanceFieldDto) (encoding : InstanceEncodingDto)
  deriving DecidableEq, Repr

structure ScalarExtractDto where
  offset : ℕ
  deriving DecidableEq, Repr

structure ResponseChecksumDto where
  offset : ℕ
  algorithm : SimpleChecksum
  deriving DecidableEq, Repr

structure ResponseDto where
  exactLength : ℕ
  «matches» : List ResponseMatchDto
  extract : Option ScalarExtractDto
  checksum : Option ResponseChecksumDto
  deriving DecidableEq, Repr

structure ReadDto where
  request : RequestDto
  response : ResponseDto
  deriving DecidableEq, Repr

structure WriteDto where
  request : RequestDto
  ack : ResponseDto
  readback : Option ReadDto
  deriving DecidableEq, Repr

structure ParameterDto where
  parameterId : ℕ
  key : String
  displayName : String
  role : RoleDto
  access : AccessDto
  unitId : String
  unitSymbol : String
  valueType : ValueTypeDto
  engineeringMin : JsonValue
  engineeringMax : JsonValue
  writeEffect : WriteEffectDto
  encoding : EncodingDto
  read : Option ReadDto
  write : Option WriteDto
  deriving DecidableEq, Repr

structure DefinitionDto where
  formatVersion : ℕ
  definitionId : String
  definitionVersion : ℕ
  parameters : List ParameterDto
  deriving DecidableEq, Repr

/-! ### Texts and fields -/

def isLetter (byte : UInt8) : Bool := (97 ≤ byte && byte ≤ 122) || (65 ≤ byte && byte ≤ 90)

def isDigit (byte : UInt8) : Bool := 48 ≤ byte && byte ≤ 57

def validateKey (key : String) : Compiled Unit :=
  Checks.reject ((utf8 key).length > 64 ∨ (utf8 key).head?.any isLetter = false ∨
    (utf8 key).tail.any (fun byte => !(isLetter byte || isDigit byte || byte == 95 || byte == 45)) = true)
    (.new "invalid deployment: invalid logical key")

def validateDisplayName (name : String) : Compiled Unit :=
  Checks.reject (isBlank name = true ∨ (utf8 name).length > 128) (.new "invalid deployment: invalid display name")

def isAsciiGraphic (byte : UInt8) : Bool := 33 ≤ byte && byte ≤ 126

def unitTextValid (value : String) (maximum : ℕ) : Bool := !(isBlank value || decide ((utf8 value).length > maximum))

/-- `Unit::new`. -/
def newUnit (id symbol : String) : Compiled EngineeringUnit :=
  if (utf8 id).all isAsciiGraphic && unitTextValid id 32 && unitTextValid symbol 16 then .ok ⟨id, symbol⟩
  else ofCore (.error (.invalidConfiguration "invalid engineering unit"))

def isHexDigit (byte : UInt8) : Bool := isDigit byte || (97 ≤ byte && byte ≤ 102)

def hexDigit (byte : UInt8) : UInt8 := if isDigit byte then byte - 48 else byte - 87

/-- The bytes that pairs of hex digits spell. -/
def hexPairs : List UInt8 → List UInt8
  | high :: low :: rest => (16 * hexDigit high + hexDigit low) :: hexPairs rest
  | _ => []

def decodeHex (value : String) (maximum : ℕ) : Compiled (List UInt8) := do
  let bytes := utf8 value
  Checks.reject (bytes = [] ∨ bytes.length % 2 ≠ 0 ∨ bytes.length / 2 > maximum ∨ bytes.all isHexDigit = false)
    (.new "invalid lowercase bounded hex")
  return hexPairs bytes

def instanceWidth : InstanceEncodingDto → ℕ
  | .u8 => 1
  | .u16Le | .u16Be => 2

def encodeInstance (field : InstanceFieldDto) (encoding : InstanceEncodingDto) (address channel : UInt16) :
    Compiled (List UInt8) :=
  let value := match field with
    | .address => address
    | .channel => channel
  match encoding with
  | .u8 =>
    if value.toNat < 256 then .ok [value.toUInt8] else .error (.new "instance field does not fit u8")
  | .u16Le => .ok (Metakon.toLeBytes value)
  | .u16Be => .ok (Metakon.toLeBytes value).reverse

/-! ### Validators -/

/-- A check of what may be absent. -/
def validateOptional {α : Type} (check : α → Compiled Unit) : Option α → Compiled Unit
  | none => .ok ()
  | some a => check a

def isNegativeZero (value : F64) : Bool := value == F64.zero && value.sign

def validateRange (p : ParameterDto) : Compiled Unit :=
  match p.valueType with
  | .integer =>
    match p.engineeringMin.asI64, p.engineeringMax.asI64 with
    | none, _ => .error (.new "integer minimum must fit i64")
    | _, none => .error (.new "integer maximum must fit i64")
    | some minimum, some maximum => Checks.reject (minimum > maximum) (.new "invalid integer engineering range")
  | .float =>
    match p.engineeringMin.asF64.filter F64.isFinite, p.engineeringMax.asF64.filter F64.isFinite with
    | none, _ => .error (.new "float minimum must be finite")
    | _, none => .error (.new "float maximum must be finite")
    | some minimum, some maximum =>
      Checks.reject (maximum ≤ minimum ∨ isNegativeZero minimum = true ∨ isNegativeZero maximum = true)
        (.new "invalid float engineering range")

def validateEncoding (encoding : EncodingDto) : Compiled Unit :=
  Checks.reject (encoding.scale.isFinite = false ∨ (encoding.scale == F64.zero) = true ∨ isNegativeZero encoding.scale = true ∨
    encoding.offset.isFinite = false ∨ isNegativeZero encoding.offset = true) (.new "invalid scalar transform")

/-- What the loop over the segments has counted. -/
structure RequestShape where
  checksumSeen : Bool
  inserts : ℕ
  encodedLength : ℕ
  valueFields : ℕ
  deriving DecidableEq, Repr

/-- The width of one segment with `rest` after it, and what it adds to the counts. -/
def segmentWidth (encoding : SimpleScalarEncoding) (shape : RequestShape) (rest : List RequestSegmentDto) :
    RequestSegmentDto → Compiled (ℕ × RequestShape)
  | .literal hex => do
    let bytes ← decodeHex hex maxRequestLiteralBytes
    return (bytes.length, shape)
  | .instanceField _ fieldEncoding =>
    .ok (instanceWidth fieldEncoding, { shape with inserts := shape.inserts + 1 })
  | .valueField =>
    .ok (encoding.width, { shape with inserts := shape.inserts + 1, valueFields := shape.valueFields + 1 })
  | .checksum algorithm => do
    Checks.reject (shape.checksumSeen = true ∨ rest ≠ []) (.new "request checksum must occur once and last")
    Checks.reject (shape.encodedLength > maxSimpleChecksumInputBytes) (.new "request checksum input exceeds 62 bytes")
    return (algorithm.width, { shape with checksumSeen := true })

def requestShape (encoding : SimpleScalarEncoding) : List RequestSegmentDto → RequestShape → Compiled RequestShape
  | [], shape => .ok shape
  | segment :: rest, shape => do
    let (width, shape) ← segmentWidth encoding shape rest segment
    Checks.reject (checkedAdd shape.encodedLength width = none) (.new "request length overflow")
    requestShape encoding rest { shape with encodedLength := shape.encodedLength + width }

def validateRequestShape (request : RequestDto) (requireValue : Bool) (encoding : SimpleScalarEncoding) :
    Compiled Unit := do
  Checks.reject (request.segments = [] ∨ request.segments.length > maxRequestSegments)
    (.new "request segment count must be 1..=8")
  let shape ← requestShape encoding request.segments
    { checksumSeen := false, inserts := 0, encodedLength := 0, valueFields := 0 }
  Checks.reject (shape.valueFields ≠ if requireValue then 1 else 0)
    (.new (if requireValue then "WRITE request requires exactly one value_field"
      else "READ request cannot contain value_field"))
  Checks.reject (shape.inserts > maxNonliteralInserts) (.new "too many request field inserts")
  Checks.reject (¬ (1 ≤ shape.encodedLength ∧ shape.encodedLength ≤ maxTransactionBytes))
    (.new "compiled request length must be 1..=64")

/-- The offset, width and literal bytes of one comparison that lies in the response. -/
def matchShape (exactLength : ℕ) : ResponseMatchDto → Compiled (ℕ × ℕ × Option (List UInt8))
  | .literalMatch offset hex => do
    let bytes ← decodeHex hex maxMatchLiteralBytes
    Checks.reject (min (offset + bytes.length) u64Max > exactLength) (.new "literal match out of bounds")
    return (offset, bytes.length, some bytes)
  | .instanceMatch offset _ encoding => do
    Checks.reject (min (offset + instanceWidth encoding) u64Max > exactLength) (.new "instance match out of bounds")
    return (offset, instanceWidth encoding, none)

/-- A response byte that a comparison fixes, and whether a literal does. -/
abbrev MatchEvidence := List (Option (UInt8 × Bool))

def markByte (offset : ℕ) (literal : Option (List UInt8)) (evidence : MatchEvidence) (index : ℕ) :
    Compiled MatchEvidence :=
  let (byte, isLiteral) := match literal with
    | some bytes => (bytes.getD index 0, true)
    | none => (0, false)
  match evidence[offset + index]? with
  | none => .error .panicked
  | some (some (prior, priorLiteral)) =>
    if !isLiteral || !priorLiteral || prior != byte then .error (.new "invalid response match overlap")
    else .ok (evidence.set (offset + index) (some (byte, isLiteral)))
  | some none => .ok (evidence.set (offset + index) (some (byte, isLiteral)))

/-- One round of the loop over the comparisons: the ranges so far and the bytes they fix. -/
def markMatch (exactLength : ℕ) (extractRange : Option (ℕ × ℕ)) (marked : List (ℕ × ℕ) × MatchEvidence)
    (comparison : ResponseMatchDto) : Compiled (List (ℕ × ℕ) × MatchEvidence) := do
  let (offset, width, literal) ← matchShape exactLength comparison
  let evidence ← (List.range width).foldlM (markByte offset literal) marked.2
  Checks.reject (extractRange.any (fun range => rangesOverlap offset (offset + width) range.1 range.2) = true)
    (.new "extract overlaps response match")
  return (marked.1 ++ [(offset, offset + width)], evidence)

def validateResponseChecksum (exactLength : ℕ) (extractRange : Option (ℕ × ℕ)) (matchRanges : List (ℕ × ℕ))
    (checksum : ResponseChecksumDto) : Compiled Unit := do
  let width := checksum.algorithm.width
  Checks.reject (checksum.offset = 0 ∨ checksum.offset > maxSimpleChecksumInputBytes ∨
    min (checksum.offset + width) u64Max > exactLength) (.new "response checksum out of bounds")
  let checksumEnd := checksum.offset + width
  Checks.reject (extractRange.any (fun range => rangesOverlap range.1 range.2 checksum.offset checksumEnd) = true ∨
    matchRanges.any (fun range => rangesOverlap range.1 range.2 checksum.offset checksumEnd) = true)
    (.new "checksum overlaps response field")

def validateResponseShape (response : ResponseDto) (encoding : SimpleScalarEncoding) (requireExtract : Bool) :
    Compiled Unit := do
  Checks.reject (¬ (1 ≤ response.exactLength ∧ response.exactLength ≤ maxTransactionBytes) ∨
    response.matches.length > maxResponseMatches) (.new "invalid response length or match count")
  Checks.reject (response.extract.isSome ≠ requireExtract) (.new "invalid response extract cardinality")
  let extractRange := response.extract.map fun extract => (extract.offset, extract.offset + encoding.width)
  Checks.reject (extractRange.any (fun range => decide (range.2 > u64Max)) = true) (.new "response offset overflow")
  Checks.reject (extractRange.any (fun range => decide (range.2 > response.exactLength)) = true)
    (.new "scalar extract out of bounds")
  let (matchRanges, _) ← response.matches.foldlM (markMatch response.exactLength extractRange)
    ([], List.replicate response.exactLength none)
  validateOptional (validateResponseChecksum response.exactLength extractRange matchRanges) response.checksum

def isObservation (p : ParameterDto) : Bool :=
  (p.role == .measurement || p.role == .diagnostic) && p.access == .readOnly && p.writeEffect == .none &&
    p.read.isSome && p.write.isNone

def isActuator (p : ParameterDto) : Bool :=
  p.role == .actuator && (p.access == .readWrite || p.access == .writeOnly) && p.writeEffect == .outputAffecting &&
    p.valueType == .float && p.write.isSome && (p.access == .writeOnly || p.read.isSome)

def validateRead (raw : SimpleScalarEncoding) (read : ReadDto) : Compiled Unit := do
  validateRequestShape read.request false raw
  validateResponseShape read.response raw true

def validateWrite (raw : SimpleScalarEncoding) (write : WriteDto) : Compiled Unit := do
  validateRequestShape write.request true raw
  validateResponseShape write.ack raw false
  Checks.reject (write.ack.matches = []) (.new "ACK requires semantic match")
  validateOptional (validateRead raw) write.readback

/-- The identities the loop over the parameters has met, and its actuators. -/
structure Seen where
  ids : List ℕ
  keys : List String
  actuators : ℕ
  deriving DecidableEq, Repr

def validateParameter (seen : Seen) (p : ParameterDto) : Compiled Seen := do
  Checks.reject (p.parameterId = 0 ∨ p.parameterId ∈ seen.ids ∨ p.key ∈ seen.keys)
    (.new "duplicate or zero parameter identity")
  validateKey p.key
  validateDisplayName p.displayName
  let _ ← newUnit p.unitId p.unitSymbol
  Checks.reject (isObservation p = false ∧ isActuator p = false) (.new "invalid simple parameter semantics")
  let actuators := if isActuator p then seen.actuators + 1 else seen.actuators
  Checks.reject (isActuator p = true ∧ actuators > 1) (.new "at most one actuator is allowed")
  validateRange p
  validateEncoding p.encoding
  validateOptional (validateRead p.encoding.raw) p.read
  validateOptional (validateWrite p.encoding.raw) p.write
  return { ids := p.parameterId :: seen.ids, keys := p.key :: seen.keys, actuators := actuators }

def validateDefinition (dto : DefinitionDto) : Compiled Unit := do
  Checks.reject (dto.formatVersion ≠ 1) (.new "unsupported simple format_version")
  validateKey dto.definitionId
  Checks.reject (dto.definitionVersion = 0) (.new "definition_version must be nonzero")
  Checks.reject (dto.parameters = [] ∨ dto.parameters.length > maxParameters) (.new "parameter count must be 1..=16")
  let _ ← dto.parameters.foldlM validateParameter { ids := [], keys := [], actuators := 0 }

/-- Each bound in the spelling its value type has. -/
def normalizeParameter (p : ParameterDto) : Compiled ParameterDto :=
  match p.valueType with
  | .integer =>
    match p.engineeringMin.asI64, p.engineeringMax.asI64 with
    | none, _ => .error (.new "integer minimum must fit i64")
    | _, none => .error (.new "integer maximum must fit i64")
    | some minimum, some maximum =>
      .ok { p with engineeringMin := .ofI64 minimum, engineeringMax := .ofI64 maximum }
  | .float =>
    match p.engineeringMin.asF64.filter F64.isFinite, p.engineeringMax.asF64.filter F64.isFinite with
    | none, _ => .error (.new "float minimum must be finite")
    | _, none => .error (.new "float maximum must be finite")
    | some minimum, some maximum =>
      .ok { p with engineeringMin := .ofF64 minimum, engineeringMax := .ofF64 maximum }

def normalizeValidatedRanges (dto : DefinitionDto) : Compiled DefinitionDto := do
  let parameters ← dto.parameters.mapM normalizeParameter
  return { dto with parameters := parameters }

end LabRuntime.Simple
