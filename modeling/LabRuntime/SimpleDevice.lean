import LabRuntime.Instrument

/-! Compiled read and output plans of bounded declarative devices. The checks of a plan precede
its use, so the slices that a plan names lie inside the responses it is given. -/

namespace LabRuntime

def maxSimpleParameters : ℕ := 16
def maxSimpleInstruments : ℕ := 32
def maxSimpleMatches : ℕ := 8
def maxSimpleChecksumInputBytes : ℕ := 62

/-! ### Scalars -/

inductive SimpleScalarEncoding
  | u8 | i8 | u16Le | u16Be | i16Le | i16Be | u32Le | u32Be | i32Le | i32Be | f32Le | f32Be
  deriving DecidableEq, Repr

/-- How a scalar is laid out, read off its encoding. -/
inductive ScalarKind
  | unsigned | signed | float
  deriving DecidableEq, Repr

/-- `n` in `width` bytes, least significant first. -/
def leBytes (width n : ℕ) : List UInt8 := (List.range width).map fun i => (n / 256 ^ i).toUInt8

def ofLeBytes (bytes : List UInt8) : ℕ := bytes.foldr (fun byte n => byte.toNat + 256 * n) 0

/-- The zero of binary32 that both signed zeros become. -/
def normalizeF32 (pattern : ℕ) : ℕ := if pattern % 2 ^ 31 = 0 then 0 else pattern

def isFiniteF32 (pattern : ℕ) : Bool := decide (pattern % 2 ^ 31 < F64.f32Infinity)

/-- The integral value of a double inside `i128`. -/
def exactInteger (value : F64) : Option ℤ :=
  if !(value.fract == F64.zero) || decide (value < F64.ofInt (-2 ^ 127)) || decide (F64.ofInt (2 ^ 127) ≤ value) then
    none
  else some value.toInt

namespace SimpleScalarEncoding

def width : SimpleScalarEncoding → ℕ
  | .u8 | .i8 => 1
  | .u16Le | .u16Be | .i16Le | .i16Be => 2
  | .u32Le | .u32Be | .i32Le | .i32Be | .f32Le | .f32Be => 4

def kind : SimpleScalarEncoding → ScalarKind
  | .u8 | .u16Le | .u16Be | .u32Le | .u32Be => .unsigned
  | .i8 | .i16Le | .i16Be | .i32Le | .i32Be => .signed
  | .f32Le | .f32Be => .float

def bigEndian : SimpleScalarEncoding → Bool
  | .u16Be | .i16Be | .u32Be | .i32Be | .f32Be => true
  | _ => false

/-- Bytes in the encoding's order, from and to least significant first. -/
def order (e : SimpleScalarEncoding) (bytes : List UInt8) : List UInt8 := if e.bigEndian then bytes.reverse else bytes

/-- `u8::try_from` and its siblings: the integer as the width's two's complement. -/
def encodeInteger (e : SimpleScalarEncoding) (value : ℤ) : Option ℕ :=
  let bound : ℤ := 2 ^ (8 * e.width)
  if e.kind = .signed then
    if -(bound / 2) ≤ value ∧ value < bound / 2 then some (value % bound).toNat else none
  else if 0 ≤ value ∧ value < bound then some value.toNat else none

def decode (e : SimpleScalarEncoding) (bytes : List UInt8) : Option F64 :=
  if bytes.length ≠ e.width then none
  else
    let n := ofLeBytes (e.order bytes)
    let bound : ℕ := 2 ^ (8 * e.width)
    let value := match e.kind with
      | .unsigned => F64.ofInt n
      | .signed => F64.ofInt (if n < bound / 2 then n else (n : ℤ) - bound)
      | .float => F64.ofF32 n
    if value.isFinite then some value else none

/-- One engineering value in its exact raw form. -/
def encode (e : SimpleScalarEncoding) (engineering scale offset : F64) : Option (List UInt8) :=
  if !engineering.isFinite || !scale.isFinite || scale == F64.zero || !offset.isFinite then none
  else
    let raw := (engineering.sub offset).div scale
    if !raw.isFinite then none
    else match e.kind with
    | .float =>
      let encoded := raw.toF32
      if !isFiniteF32 encoded || !(F64.ofF32 encoded == raw) then none
      else some (e.order (leBytes e.width (normalizeF32 encoded)))
    | _ => match (exactInteger raw).bind e.encodeInteger with
      | some n => some (e.order (leBytes e.width n))
      | none => none

/-- Raw bytes normalized for an exact readback comparison. -/
def normalizeRaw (e : SimpleScalarEncoding) (bytes : List UInt8) : Option (List UInt8) :=
  if bytes.length ≠ e.width then none
  else match e.kind with
  | .float =>
    let pattern := ofLeBytes (e.order bytes)
    if isFiniteF32 pattern then some (e.order (leBytes e.width (normalizeF32 pattern))) else none
  | _ => some bytes

end SimpleScalarEncoding

/-! ### Checksums and response evidence -/

inductive SimpleChecksum
  | sum8 | xor8 | crc16Modbus
  deriving DecidableEq, Repr

def SimpleChecksum.width : SimpleChecksum → ℕ
  | .sum8 | .xor8 => 1
  | .crc16Modbus => 2

def crc16Bit (crc : UInt16) : UInt16 := if crc &&& 1 = 1 then (crc >>> 1) ^^^ 0xa001 else crc >>> 1

def crc16Modbus (bytes : List UInt8) : UInt16 :=
  bytes.foldl (fun crc byte => (List.range 8).foldl (fun crc _ => crc16Bit crc) (crc ^^^ byte.toUInt16)) 0xffff

/-- The checksum field of a prefix. -/
def SimpleChecksum.field (c : SimpleChecksum) (covered : List UInt8) : List UInt8 :=
  match c with
  | .sum8 => [covered.foldl (· + ·) 0]
  | .xor8 => [covered.foldl (· ^^^ ·) 0]
  | .crc16Modbus => Metakon.toLeBytes (LabRuntime.crc16Modbus covered)

inductive SimpleResponseMatchKind
  | literal | «instance»
  deriving DecidableEq, Repr

structure SimpleResponseMatch where
  kind : SimpleResponseMatchKind
  offset : ℕ
  expected : List UInt8
  deriving DecidableEq, Repr

structure SimpleResponseChecksum where
  offset : ℕ
  algorithm : SimpleChecksum
  deriving DecidableEq, Repr

/-- `bytes.get(start..start + length)`. -/
def slice (bytes : List UInt8) (start length : ℕ) : Option (List UInt8) :=
  if start + length ≤ bytes.length then some ((bytes.drop start).take length) else none

def SimpleResponseMatch.holds (m : SimpleResponseMatch) (bytes : List UInt8) : Bool :=
  slice bytes m.offset m.expected.length == some m.expected

def SimpleResponseChecksum.holds (c : SimpleResponseChecksum) (bytes : List UInt8) : Bool :=
  slice bytes c.offset c.algorithm.width == some (c.algorithm.field (bytes.take c.offset))

/-- Which response bytes the comparisons fix, and from where. -/
abbrev Occupied := List (Option (UInt8 × SimpleResponseMatchKind))

/-- Only equal literal bytes may overlap. -/
def occupyByte (kind : SimpleResponseMatchKind) (occupied : Occupied) (index : ℕ) (expected : UInt8) :
    Except Error Occupied :=
  match (occupied[index]?).join with
  | some (prior, priorKind) =>
    if prior ≠ expected ∨ priorKind ≠ .literal ∨ kind ≠ .literal then
      .error (.invalidConfiguration "invalid simple response match overlap")
    else .ok (occupied.set index (some (expected, kind)))
  | none => .ok (occupied.set index (some (expected, kind)))

def occupyMatch (exactLength : ℕ) (occupied : Occupied) (m : SimpleResponseMatch) : Except Error Occupied := do
  if m.expected.isEmpty || decide (m.expected.length > 16) then
    throw (.invalidConfiguration "invalid simple response match")
  if checkedAdd m.offset m.expected.length = none then
    throw (.invalidConfiguration "simple response offset overflow")
  if m.offset + m.expected.length > exactLength then
    throw (.invalidConfiguration "simple match out of bounds")
  m.expected.zipIdx.foldlM (fun occupied (expected, index) =>
    occupyByte m.kind occupied (m.offset + index) expected) occupied

def anyOccupied (occupied : Occupied) (start length : ℕ) : Bool :=
  ((occupied.drop start).take length).any Option.isSome

def validateResponseEvidence (exactLength : ℕ) (ms : List SimpleResponseMatch)
    (checksum : Option SimpleResponseChecksum) : Except Error Occupied := do
  if ¬ (1 ≤ exactLength ∧ exactLength ≤ maxTransactionBytes) ∨ ms.length > maxSimpleMatches then
    throw (.invalidConfiguration "invalid simple response plan")
  let occupied ← ms.foldlM (occupyMatch exactLength) (List.replicate exactLength none)
  if let some checksum := checksum then
    if checkedAdd checksum.offset checksum.algorithm.width = none then
      throw (.invalidConfiguration "simple checksum offset overflow")
    if checksum.offset = 0 ∨ checksum.offset > maxSimpleChecksumInputBytes ∨
        checksum.offset + checksum.algorithm.width > exactLength ∨
        anyOccupied occupied checksum.offset checksum.algorithm.width = true then
      throw (.invalidConfiguration "simple checksum overlap")
  return occupied

/-! ### Plans -/

/-- Strict decoder of one scalar response. -/
structure SimpleResponsePlan where
  exactLength : ℕ
  «matches» : List SimpleResponseMatch
  extractOffset : ℕ
  encoding : SimpleScalarEncoding
  scale : F64
  engineeringOffset : F64
  checksum : Option SimpleResponseChecksum
  deriving DecidableEq, Repr

def rangesOverlap (leftStart leftEnd rightStart rightEnd : ℕ) : Bool :=
  decide (leftStart < rightEnd) && decide (rightStart < leftEnd)

namespace SimpleResponsePlan

def validate (p : SimpleResponsePlan) : Except Error Unit := do
  if ¬ (1 ≤ p.exactLength ∧ p.exactLength ≤ maxTransactionBytes) ∨ p.matches.length > maxSimpleMatches ∨
      p.scale.isFinite = false ∨ (p.scale == F64.zero) = true ∨ p.engineeringOffset.isFinite = false then
    throw (.invalidConfiguration "invalid simple response plan")
  if checkedAdd p.extractOffset p.encoding.width = none then
    throw (.invalidConfiguration "simple response offset overflow")
  let extractEnd := p.extractOffset + p.encoding.width
  if extractEnd > p.exactLength then
    throw (.invalidConfiguration "simple extract out of bounds")
  let occupied ← validateResponseEvidence p.exactLength p.matches p.checksum
  if anyOccupied occupied p.extractOffset p.encoding.width then
    throw (.invalidConfiguration "simple extract overlaps match")
  if let some checksum := p.checksum then
    if rangesOverlap p.extractOffset extractEnd checksum.offset (checksum.offset + checksum.algorithm.width) then
      throw (.invalidConfiguration "simple checksum overlap")

/-- The engineering value of a response that carries every piece of evidence, beside its raw bytes. -/
def decodeScalar (p : SimpleResponsePlan) (bytes : List UInt8) : Option (F64 × List UInt8) :=
  if bytes.length ≠ p.exactLength ∨ p.matches.all (fun comparison => comparison.holds bytes) = false ∨
      p.checksum.all (fun checksum => checksum.holds bytes) = false then none
  else do
    let rawBytes ← slice bytes p.extractOffset p.encoding.width
    let normalizedRaw ← p.encoding.normalizeRaw rawBytes
    let raw ← p.encoding.decode rawBytes
    let engineering := (raw.mul p.scale).add p.engineeringOffset
    if engineering.isFinite then some (engineering, normalizedRaw) else none

/-- An engineering value as a scalar of the descriptor's kind. -/
def engineeringValue (valueType : ValueType) (engineering : F64) : Option Value :=
  match valueType with
  | .integer =>
    if engineering.fract == F64.zero && decide (F64.ofInt (-2 ^ 63) ≤ engineering) &&
        decide (engineering < F64.ofInt (2 ^ 63)) then some (.integer engineering.toInt)
    else none
  | .float => some (.float engineering)
  | _ => none

def decodeWithRaw (p : SimpleResponsePlan) (bytes : List UInt8) (descriptor : ParameterDescriptor) :
    Option (Value × List UInt8) := do
  let (engineering, normalizedRaw) ← p.decodeScalar bytes
  let value ← engineeringValue descriptor.valueSpec.valueType engineering
  match descriptor.valueSpec.validate value with
  | .ok _ => some (value, normalizedRaw)
  | .error _ => none

def decode (p : SimpleResponsePlan) (bytes : List UInt8) (descriptor : ParameterDescriptor) : Option Value :=
  (p.decodeWithRaw bytes descriptor).map Prod.fst

def verifyReadback (p : SimpleResponsePlan) (bytes : List UInt8) (descriptor : ParameterDescriptor)
    (expectedRaw : List UInt8) : Option (F64 × Bool) := do
  let (engineering, normalizedRaw) ← p.decodeScalar bytes
  let matched := normalizedRaw == expectedRaw
  match matched, descriptor.valueSpec.validate (.float engineering) with
  | true, .error _ => none
  | _, _ => some (engineering, matched)

/-- What a plan decodes lies within the descriptor. -/
theorem validate_of_decode {p : SimpleResponsePlan} {bytes : List UInt8} {descriptor : ParameterDescriptor}
    {value : Value} (h : p.decode bytes descriptor = some value) : descriptor.valueSpec.validate value = .ok () := by
  simp only [decode, decodeWithRaw, Option.map_eq_some_iff, Option.bind_eq_bind, Option.bind_eq_some_iff] at h
  obtain ⟨⟨v, raw⟩, ⟨_, _, v', _, h⟩, heq⟩ := h
  obtain rfl : v = value := heq
  cases hv : descriptor.valueSpec.validate v' with
  | error error => simp [hv] at h
  | ok _ =>
    simp only [hv, Option.some.injEq, Prod.mk.injEq] at h
    exact h.1 ▸ hv

end SimpleResponsePlan

structure SimpleReadPlan where
  request : List UInt8
  response : SimpleResponsePlan
  deriving DecidableEq, Repr

inductive SimpleWriteSegment
  | literal (bytes : List UInt8)
  | value
  | checksum (algorithm : SimpleChecksum)
  deriving DecidableEq, Repr

/-- Strict acknowledgement: nothing is extracted from it. -/
structure SimpleAckPlan where
  exactLength : ℕ
  «matches» : List SimpleResponseMatch
  checksum : Option SimpleResponseChecksum
  deriving DecidableEq, Repr

namespace SimpleAckPlan

def validate (p : SimpleAckPlan) : Except Error Unit := do
  let _ ← validateResponseEvidence p.exactLength p.matches p.checksum
  if p.matches.isEmpty then
    throw (.invalidConfiguration "simple ACK lacks semantic match")

def accepts (p : SimpleAckPlan) (bytes : List UInt8) : Bool :=
  bytes.length == p.exactLength && p.matches.all (fun comparison => comparison.holds bytes) &&
    p.checksum.all (fun checksum => checksum.holds bytes)

end SimpleAckPlan

structure SimpleWritePlan where
  request : List SimpleWriteSegment
  ack : SimpleAckPlan
  readback : Option SimpleReadPlan
  encoding : SimpleScalarEncoding
  scale : F64
  engineeringOffset : F64
  deriving DecidableEq, Repr

namespace SimpleWritePlan

/-- The loop over the segments: the length so far, and whether a checksum was seen. -/
def requestLength (encoding : SimpleScalarEncoding) : List SimpleWriteSegment → ℕ → Bool → Except Error ℕ
  | [], length, _ => .ok length
  | segment :: rest, length, checksumSeen => do
    let width ← match segment with
      | .literal bytes =>
        if bytes.isEmpty then throw (.invalidConfiguration "invalid simple write literal") else pure bytes.length
      | .value => pure encoding.width
      | .checksum algorithm =>
        if checksumSeen || !rest.isEmpty then throw (.invalidConfiguration "invalid simple write checksum")
        else pure algorithm.width
    match checkedAdd length width with
    | none => throw (.invalidConfiguration "simple write request length overflow")
    | some length =>
      requestLength encoding rest length (checksumSeen || segment matches .checksum _)

def validate (p : SimpleWritePlan) : Except Error Unit := do
  if p.request.isEmpty ∨ p.request.length > 8 ∨ p.scale.isFinite = false ∨ (p.scale == F64.zero) = true ∨
      p.engineeringOffset.isFinite = false ∨ p.request.count .value ≠ 1 then
    throw (.invalidConfiguration "invalid simple write request")
  let encodedLength ← requestLength p.encoding p.request 0 false
  if ¬ (1 ≤ encodedLength ∧ encodedLength ≤ maxTransactionBytes) then
    throw (.invalidConfiguration "invalid simple write request length")
  p.ack.validate
  if let some readback := p.readback then
    if readback.request.isEmpty || decide (readback.request.length > maxTransactionBytes) then
      throw (.invalidConfiguration "invalid simple readback request")
    readback.response.validate
    if readback.response.encoding ≠ p.encoding ∨ (readback.response.scale == p.scale) = false ∨
        (readback.response.engineeringOffset == p.engineeringOffset) = false then
      throw (.invalidConfiguration "simple readback encoding differs from write encoding")

/-- The request so far, extended by one segment. -/
def encodeSegment (raw request : List UInt8) (segment : SimpleWriteSegment) : Option (List UInt8) :=
  let request := request ++ match segment with
    | .literal bytes => bytes
    | .value => raw
    | .checksum algorithm => algorithm.field request
  if request.length > maxTransactionBytes then none else some request

/-- The request of one engineering value and the raw scalar in it. -/
def encode (p : SimpleWritePlan) (engineering : F64) : Option (List UInt8 × List UInt8) := do
  let raw ← p.encoding.encode engineering p.scale p.engineeringOffset
  let request ← p.request.foldlM (encodeSegment raw) []
  if request.isEmpty then none else some (request, raw)

end SimpleWritePlan

/-! ### Instruments -/

structure SimpleParameterConfig where
  descriptor : ParameterDescriptor
  read : Option SimpleReadPlan
  write : Option SimpleWritePlan
  deriving Repr

structure SimpleDeviceBinding where
  resource : ResourceId
  bindingGeneration : ℕ
  mappingRevision : ℕ
  outputQueueTtl : Option ℕ
  outputTimeout : Option ℕ
  deriving DecidableEq, Repr

structure SimpleDeviceInstrumentConfig where
  id : InstrumentId
  name : String
  parameters : List SimpleParameterConfig
  binding : SimpleDeviceBinding
  historyCapacity : ℕ
  deriving Repr

structure SimpleDeviceInstrument where
  descriptor : InstrumentDescriptor
  plans : OrderedMap ParameterId SimpleReadPlan
  writes : OrderedMap ParameterId SimpleWritePlan
  binding : SimpleDeviceBinding
  signals : OrderedMap SignalId SignalBuffer
  deriving Repr

namespace SimpleDeviceInstrument

/-- What the loop over the parameters has built. -/
structure Build where
  descriptors : List ParameterDescriptor
  plans : OrderedMap ParameterId SimpleReadPlan
  writes : OrderedMap ParameterId SimpleWritePlan
  signals : OrderedMap SignalId SignalBuffer
  actuatorCount : ℕ

def isObservation (id : InstrumentId) (p : SimpleParameterConfig) : Bool :=
  p.descriptor.role.observed && p.descriptor.access == .readOnly && p.descriptor.writeEffect == .none &&
    p.descriptor.signal == some { instrument := id, parameter := p.descriptor.id } && p.write.isNone

def isActuator (id : InstrumentId) (p : SimpleParameterConfig) : Bool :=
  p.descriptor.role == .actuator && (p.descriptor.access == .readWrite || p.descriptor.access == .writeOnly) &&
    p.descriptor.writeEffect == .outputAffecting && p.descriptor.valueSpec.valueType == .float &&
    p.descriptor.signal == (if p.descriptor.access = .readWrite then
      some { instrument := id, parameter := p.descriptor.id } else none)

def addParameter (id : InstrumentId) (historyCapacity : ℕ) (b : Build) (p : SimpleParameterConfig) :
    Except Error Build := do
  let descriptor := p.descriptor
  if descriptor.id = 0 ∨ b.descriptors.any (fun d => d.id == descriptor.id) = true then
    throw (.invalidConfiguration "invalid simple-device parameter")
  descriptor.validateDefinition
  let observation := isObservation id p
  let actuator := isActuator id p
  if !observation && !actuator then
    throw (.invalidConfiguration "invalid simple-device parameter")
  if actuator && descriptor.access == .readWrite then
    match p.read, p.write with
    | none, _ => throw (.invalidConfiguration "simple readable actuator lacks plan")
    | _, none => throw (.invalidConfiguration "simple actuator lacks write plan")
    | some read, some write =>
      if read.response.encoding ≠ write.encoding ∨ (read.response.scale == write.scale) = false ∨
          (read.response.engineeringOffset == write.engineeringOffset) = false then
        throw (.invalidConfiguration "simple actuator read encoding differs from write encoding")
  let b ← match p.read with
    | some read => do
      if read.request.isEmpty || decide (read.request.length > maxTransactionBytes) then
        throw (.invalidConfiguration "invalid simple request length")
      read.response.validate
      match descriptor.signal with
      | none => throw (.invalidConfiguration "simple readable parameter lacks signal")
      | some signal =>
        let buffer ← SignalBuffer.new signal historyCapacity
        pure { b with signals := b.signals.insert signal buffer, plans := b.plans.insert descriptor.id read }
    | none =>
      if observation || descriptor.access == .readWrite then
        throw (.invalidConfiguration "simple readable parameter lacks plan")
      else pure b
  let b ← match p.write with
    | some write => do
      if !actuator || b.actuatorCount == 1 then
        throw (.invalidConfiguration "invalid simple-device actuator")
      write.validate
      pure { b with actuatorCount := b.actuatorCount + 1, writes := b.writes.insert descriptor.id write }
    | none =>
      if actuator then throw (.invalidConfiguration "simple actuator lacks write plan") else pure b
  return { b with descriptors := b.descriptors ++ [descriptor] }

def new (config : SimpleDeviceInstrumentConfig) : Except Error SimpleDeviceInstrument := do
  let binding := config.binding
  if config.id = 0 ∨ binding.resource = 0 ∨ binding.bindingGeneration = 0 ∨ binding.mappingRevision = 0 ∨
      config.parameters.isEmpty = true ∨ config.parameters.length > maxSimpleParameters then
    throw (.invalidConfiguration "invalid simple-device registration")
  validateName config.name
  let start : Build :=
    { descriptors := [], plans := .empty, writes := .empty, signals := .empty, actuatorCount := 0 }
  let b ← config.parameters.foldlM (addParameter config.id config.historyCapacity) start
  if b.actuatorCount = 1 ∧ (binding.outputQueueTtl.isNone = true ∨ binding.outputTimeout.isNone = true ∨
      binding.outputQueueTtl = some 0 ∨ binding.outputTimeout = some 0) then
    throw (.invalidConfiguration "simple actuator lacks physical output timing")
  return {
    descriptor := { id := config.id, name := config.name, parameters := b.descriptors }
    plans := b.plans
    writes := b.writes
    binding := binding
    signals := b.signals }

end SimpleDeviceInstrument
end LabRuntime
