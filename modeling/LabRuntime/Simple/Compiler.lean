import LabRuntime.Simple.Schema

/-! The compiler of simple-device definitions: bounded concrete requests, fixed comparisons and
ordinary descriptors. It owns no transport. -/

namespace LabRuntime.Simple

open Checks

structure CompiledParameterTemplate where
  id : ParameterId
  name : String
  role : ParameterRole
  unit : EngineeringUnit
  valueSpec : ValueSpec
  encoding : EncodingDto
  access : AccessMode
  writeEffect : WriteEffect
  read : Option ReadDto
  write : Option WriteDto
  deriving Repr

structure CompiledSimpleDefinition where
  formatVersion : ℕ
  definitionId : String
  definitionVersion : ℕ
  canonical : List UInt8
  parameters : List CompiledParameterTemplate
  deriving Repr

/-- The serializer: `fromStr` reads a definition or says why not, `toVec` writes one. -/
structure Serializer where
  fromStr : String → Except String DefinitionDto
  toVec : DefinitionDto → Option (List UInt8)

def RoleDto.core : RoleDto → ParameterRole
  | .measurement => .measurement
  | .diagnostic => .diagnostic
  | .actuator => .actuator

def AccessDto.core : AccessDto → AccessMode
  | .readOnly => .readOnly
  | .readWrite => .readWrite
  | .writeOnly => .writeOnly

def WriteEffectDto.core : WriteEffectDto → WriteEffect
  | .none => .none
  | .outputAffecting => .outputAffecting

/-- The bounds of a validated parameter. -/
def templateSpec (p : ParameterDto) : Compiled ValueSpec :=
  match p.valueType with
  | .integer =>
    match p.engineeringMin.asI64, p.engineeringMax.asI64 with
    | some minimum, some maximum => .ok (.integer minimum maximum)
    | _, _ => .error .panicked
  | .float =>
    match p.engineeringMin.asF64, p.engineeringMax.asF64 with
    | some minimum, some maximum => .ok (.float minimum maximum)
    | _, _ => .error .panicked

def compileParameterTemplate (p : ParameterDto) : Compiled CompiledParameterTemplate := do
  let valueSpec ← templateSpec p
  let unit ← newUnit p.unitId p.unitSymbol
  return {
    id := p.parameterId
    name := p.displayName
    role := p.role.core
    unit := unit
    valueSpec := valueSpec
    encoding := p.encoding
    access := p.access.core
    writeEffect := p.writeEffect.core
    read := p.read
    write := p.write }

def compileDefinitionDto (serde : Serializer) (dto : DefinitionDto) : Compiled CompiledSimpleDefinition := do
  validateDefinition dto
  let dto ← normalizeValidatedRanges dto
  match serde.toVec dto with
  | none => throw (.new "simple definition normalization failed")
  | some canonical =>
    Checks.reject (canonical.length > maxSimpleCanonicalBytes) (.new "canonical simple definition exceeds 6144 bytes")
    let parameters ← dto.parameters.mapM compileParameterTemplate
    return {
      formatVersion := dto.formatVersion
      definitionId := dto.definitionId
      definitionVersion := dto.definitionVersion
      canonical := canonical
      parameters := parameters }

def parseSimpleDefinition (serde : Serializer) (bytes : ByteArray) : Compiled CompiledSimpleDefinition := do
  Checks.reject (bytes.size > maxSimpleDefinitionBytes) (.new "simple definition exceeds 8192 bytes")
  match String.fromUTF8? bytes with
  | none => throw (.new "simple definition must be UTF-8")
  | some text =>
    match serde.fromStr text with
    | .error error => throw (.new ("invalid simple JSON: " ++ error))
    | .ok dto => compileDefinitionDto serde dto

/-! ### Requests -/

def compileSegment (address channel : UInt16) (value : Option (List UInt8)) (bytes : List UInt8) :
    RequestSegmentDto → Compiled (List UInt8)
  | .literal hex => do
    let literal ← decodeHex hex maxRequestLiteralBytes
    return bytes ++ literal
  | .instanceField field encoding => do
    let insert ← encodeInstance field encoding address channel
    return bytes ++ insert
  | .valueField =>
    match value with
    | none => throw (.new "unexpected value_field")
    | some value => return bytes ++ value
  | .checksum algorithm => do
    Checks.reject (bytes.length > maxSimpleChecksumInputBytes) (.new "request checksum input exceeds 62 bytes")
    return bytes ++ algorithm.field bytes

def compileRequest (request : RequestDto) (address channel : UInt16) (value : Option (List UInt8)) :
    Compiled (List UInt8) := do
  let bytes ← request.segments.foldlM (fun bytes segment => do
    let bytes ← compileSegment address channel value bytes segment
    Checks.reject (bytes.length > maxTransactionBytes) (.new "compiled request exceeds 64 bytes")
    return bytes) []
  Checks.reject (bytes = []) (.new "compiled request is empty")
  return bytes

def compileWriteSegment (address channel : UInt16) : RequestSegmentDto → Compiled SimpleWriteSegment
  | .literal hex => do
    let bytes ← decodeHex hex maxRequestLiteralBytes
    return .literal bytes
  | .instanceField field encoding => do
    let bytes ← encodeInstance field encoding address channel
    return .literal bytes
  | .valueField => .ok .value
  | .checksum algorithm => .ok (.checksum algorithm)

def compileWriteRequest (request : RequestDto) (address channel : UInt16) : Compiled (List SimpleWriteSegment) :=
  request.segments.mapM (compileWriteSegment address channel)

/-! ### Responses -/

abbrev InstanceMatches := List (ℕ × List UInt8)

def compileMatch (address channel : UInt16) : ResponseMatchDto → Compiled SimpleResponseMatch
  | .literalMatch offset hex => do
    let expected ← decodeHex hex maxMatchLiteralBytes
    return { kind := .literal, offset := offset, expected := expected }
  | .instanceMatch offset field encoding => do
    let expected ← encodeInstance field encoding address channel
    return { kind := .«instance», offset := offset, expected := expected }

/-- A byte that a comparison fixes; only equal literals may share one. -/
def placeByte (kind : SimpleResponseMatchKind) (occupied : Occupied) (index : ℕ) (expected : UInt8) :
    Compiled Occupied :=
  match occupied[index]? with
  | none => .error .panicked
  | some (some (prior, priorKind)) =>
    if prior ≠ expected ∨ priorKind ≠ .literal ∨ kind ≠ .literal then .error (.new "invalid response match overlap")
    else .ok (occupied.set index (some (expected, kind)))
  | some none => .ok (occupied.set index (some (expected, kind)))

def placeMatch (occupied : Occupied) (m : SimpleResponseMatch) : Compiled Occupied :=
  m.expected.zipIdx.foldlM (fun occupied (expected, index) => placeByte m.kind occupied (m.offset + index) expected)
    occupied

/-- What the loop over the comparisons has compiled. -/
structure Evidence where
  «matches» : List SimpleResponseMatch
  instanceMatches : InstanceMatches
  occupied : Occupied
  deriving Repr

def compileEvidenceMatch (address channel : UInt16) (evidence : Evidence) (comparison : ResponseMatchDto) :
    Compiled Evidence := do
  let m ← compileMatch address channel comparison
  let occupied ← placeMatch evidence.occupied m
  return {
    «matches» := evidence.matches ++ [m]
    instanceMatches := if m.kind = .«instance» then evidence.instanceMatches ++ [(m.offset, m.expected)]
      else evidence.instanceMatches
    occupied := occupied }

/-- Whether any byte of a range is fixed; a range outside the response is an index out of bounds. -/
def anyFixed (occupied : Occupied) (start stop : ℕ) : Compiled Bool :=
  if start ≤ stop ∧ stop ≤ occupied.length then .ok (((occupied.take stop).drop start).any Option.isSome)
  else .error .panicked

def compileResponseChecksum (occupied : Occupied) (checksum : SimpleResponseChecksum) : Compiled Unit := do
  Checks.reject (checksum.offset > maxSimpleChecksumInputBytes) (.new "response checksum input exceeds 62 bytes")
  let fixed ← anyFixed occupied checksum.offset (checksum.offset + checksum.algorithm.width)
  Checks.reject (fixed = true) (.new "checksum overlaps response field")

def compileResponseEvidence (response : ResponseDto) (address channel : UInt16) :
    Compiled (List SimpleResponseMatch × InstanceMatches × Option SimpleResponseChecksum) := do
  let evidence ← response.matches.foldlM (compileEvidenceMatch address channel)
    { «matches» := [], instanceMatches := [], occupied := List.replicate response.exactLength none }
  let checksum := response.checksum.map fun checksum =>
    ({ offset := checksum.offset, algorithm := checksum.algorithm } : SimpleResponseChecksum)
  validateOptional (compileResponseChecksum evidence.occupied) checksum
  return (evidence.matches, evidence.instanceMatches, checksum)

def compileAck (response : ResponseDto) (address channel : UInt16) : Compiled (SimpleAckPlan × InstanceMatches) := do
  let (ms, instanceMatches, checksum) ← compileResponseEvidence response address channel
  return ({ exactLength := response.exactLength, «matches» := ms, checksum := checksum }, instanceMatches)

/-- The bytes that compiled comparisons fix, entered without a check. -/
def fixByte (kind : SimpleResponseMatchKind) (occupied : Occupied) (index : ℕ) (expected : UInt8) :
    Compiled Occupied :=
  if index < occupied.length then .ok (occupied.set index (some (expected, kind))) else .error .panicked

def fixMatch (occupied : Occupied) (m : SimpleResponseMatch) : Compiled Occupied :=
  m.expected.zipIdx.foldlM (fun occupied (expected, index) => fixByte m.kind occupied (m.offset + index) expected)
    occupied

def compileResponse (response : ResponseDto) (encoding : EncodingDto) (address channel : UInt16) :
    Compiled (SimpleResponsePlan × InstanceMatches) := do
  let (ms, instanceMatches, checksum) ← compileResponseEvidence response address channel
  let occupied ← ms.foldlM fixMatch (List.replicate response.exactLength none)
  match response.extract with
  | none => throw (.new "scalar response lacks extract")
  | some extract =>
    let fixed ← anyFixed occupied extract.offset (extract.offset + encoding.raw.width)
    Checks.reject (fixed = true) (.new "extract overlaps response match")
    return ({
      exactLength := response.exactLength
      «matches» := ms
      extractOffset := extract.offset
      encoding := encoding.raw
      scale := encoding.scale
      engineeringOffset := encoding.offset
      checksum := checksum }, instanceMatches)

def compileRead (read : ReadDto) (encoding : EncodingDto) (address channel : UInt16) :
    Compiled (SimpleReadPlan × InstanceMatches) := do
  let request ← compileRequest read.request address channel none
  let (response, instanceMatches) ← compileResponse read.response encoding address channel
  return ({ request := request, response := response }, instanceMatches)

/-- An optional transaction, beside the comparisons it correlates by. -/
def compileOptional {α β : Type} (compile : α → Compiled (β × List InstanceMatches)) :
    Option α → Compiled (Option β × List InstanceMatches)
  | none => .ok (none, [])
  | some a => do
    let (b, correlations) ← compile a
    return (some b, correlations)

def compileReadPlan (encoding : EncodingDto) (address channel : UInt16) (read : ReadDto) :
    Compiled (SimpleReadPlan × List InstanceMatches) := do
  let (plan, instanceMatches) ← compileRead read encoding address channel
  return (plan, [instanceMatches])

def compileWritePlan (encoding : EncodingDto) (address channel : UInt16) (write : WriteDto) :
    Compiled (SimpleWritePlan × List InstanceMatches) := do
  let request ← compileWriteRequest write.request address channel
  let (ack, ackMatches) ← compileAck write.ack address channel
  let (readback, readbackMatches) ← compileOptional (compileReadPlan encoding address channel) write.readback
  return ({
    request := request
    ack := ack
    readback := readback
    encoding := encoding.raw
    scale := encoding.scale
    engineeringOffset := encoding.offset }, ackMatches :: readbackMatches)

/-! ### Instances -/

structure CompiledResponseCorrelation where
  parameter : ParameterId
  instanceMatches : InstanceMatches
  deriving DecidableEq, Repr

structure CompiledSimpleInstance where
  parameters : List SimpleParameterConfig
  correlations : List CompiledResponseCorrelation
  deriving Repr

def templateDescriptor (template : CompiledParameterTemplate) (instrument : InstrumentId) : ParameterDescriptor :=
  { id := template.id
    name := template.name
    valueSpec := template.valueSpec
    unit := template.unit
    access := template.access
    role := template.role
    writeEffect := template.writeEffect
    signal := if template.access ≠ .writeOnly then some { instrument := instrument, parameter := template.id }
      else none }

def compileParameter (instrument : InstrumentId) (address channel : UInt16) (template : CompiledParameterTemplate) :
    Compiled (SimpleParameterConfig × List CompiledResponseCorrelation) := do
  let (read, readMatches) ← compileOptional (compileReadPlan template.encoding address channel) template.read
  let (write, writeMatches) ← compileOptional (compileWritePlan template.encoding address channel) template.write
  let descriptor := templateDescriptor template instrument
  ofCore descriptor.validateDefinition
  return ({ descriptor := descriptor, read := read, write := write },
    (readMatches ++ writeMatches).map fun instanceMatches =>
      { parameter := template.id, instanceMatches := instanceMatches })

def compileSimpleInstance (definition : CompiledSimpleDefinition) (instrument : InstrumentId)
    (address channel : UInt16) : Compiled CompiledSimpleInstance := do
  let compiled ← definition.parameters.mapM (compileParameter instrument address channel)
  return {
    parameters := compiled.map Prod.fst
    correlations := compiled.flatMap Prod.snd }

/-- Two fixed comparisons that expect different bytes at a common place. -/
def matchesDiffer (left right : ℕ × List UInt8) : Bool :=
  let start := max left.1 right.1
  let stop := min (left.1 + left.2.length) (right.1 + right.2.length)
  (List.range' start (stop - start)).any fun offset => left.2[offset - left.1]? != right.2[offset - right.1]?

def correlationsDistinguish (left right : CompiledResponseCorrelation) : Bool :=
  left.instanceMatches.any fun leftMatch => right.instanceMatches.any fun rightMatch =>
    matchesDiffer leftMatch rightMatch

end LabRuntime.Simple
