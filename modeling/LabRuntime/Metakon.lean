import LabRuntime.Model

/-! Framing of the narrow Metakon profile: bytes, checksum, type flags and response matching.
A frame is the populated prefix of the source's fixed array. -/

namespace LabRuntime.Metakon

def maxFrameBytes : ℕ := 38

/-- Device, channel and register, repeated in every request and response. -/
structure Address where
  device : UInt8
  channel : UInt8
  register : UInt8
  deriving DecidableEq, Repr

inductive MetakonType
  | bool | u8 | i8 | u16 | i16
  deriving DecidableEq, Repr

def MetakonType.code : MetakonType → UInt8
  | .bool => 0
  | .u8 => 1
  | .i8 => 2
  | .u16 => 3
  | .i16 => 4

def MetakonType.width : MetakonType → ℕ
  | .bool | .u8 | .i8 => 1
  | .u16 | .i16 => 2

inductive MetakonValue
  | bool (value : Bool)
  | u8 (value : UInt8)
  | i8 (value : Int8)
  | u16 (value : UInt16)
  | i16 (value : Int16)
  deriving DecidableEq, Repr

def MetakonValue.valueType : MetakonValue → MetakonType
  | .bool _ => .bool
  | .u8 _ => .u8
  | .i8 _ => .i8
  | .u16 _ => .u16
  | .i16 _ => .i16

/-- `u16::to_le_bytes`. -/
def toLeBytes (value : UInt16) : List UInt8 := [value.toUInt8, (value >>> 8).toUInt8]

/-- `u16::from_le_bytes`. -/
def fromLeBytes (low high : UInt8) : UInt16 := low.toUInt16 ||| (high.toUInt16 <<< 8)

def MetakonValue.data : MetakonValue → List UInt8
  | .bool value => [if value then 1 else 0]
  | .u8 value => [value]
  | .i8 value => [value.toUInt8]
  | .u16 value => toLeBytes value
  | .i16 value => toLeBytes value.toUInt16

/-- The exact response accepted for one operation of the profile. -/
structure ExpectedRead where
  address : Address
  valueType : MetakonType
  readable : Bool
  writable : Bool
  deriving DecidableEq, Repr

def ExpectedRead.frameLen (e : ExpectedRead) : ℕ := 6 + e.valueType.width

/-- One bit of the checksum, least significant data bit first. -/
def crcBit (data checksum : UInt8) : UInt8 :=
  let feedback := (data ^^^ checksum) &&& 1
  let checksum := if feedback ≠ 0 then checksum ^^^ 0x18 else checksum
  (checksum >>> 1) ||| (feedback <<< 7)

def crcByte (checksum byte : UInt8) : UInt8 :=
  (List.range 8).foldl (fun checksum bit => crcBit (byte >>> bit.toUInt8) checksum) checksum

def crc (bytes : List UInt8) : UInt8 := bytes.foldl crcByte 0xff

example : crc [0x01] = 0x6b := by decide +kernel

/-- Append the checksum of a frame. -/
def finishCrc (frame : List UInt8) : List UInt8 := frame ++ [crc frame]

def encodeRead (address : Address) : Except CodecError (List UInt8) :=
  .ok (finishCrc [address.device, address.channel, address.register, 0])

def encodeWrite (address : Address) (value : MetakonValue) : Except CodecError (List UInt8) :=
  .ok (finishCrc ([address.device, address.channel, address.register, 1, value.valueType.code] ++ value.data))

def validateBoundAndCrc (bytes : List UInt8) : Except CodecError Unit :=
  if bytes.length > maxFrameBytes then .error .frameTooLong
  else match bytes.getLast? with
  | none => .error .wrongLength
  | some received => if crc bytes.dropLast ≠ received then .error .badCrc else .ok ()

def decodeValue (valueType : MetakonType) (bytes : List UInt8) : Except CodecError MetakonValue :=
  match valueType, bytes with
  | .bool, [value] =>
    if value = 0 then .ok (.bool false) else if value = 1 then .ok (.bool true) else .error .invalidValue
  | .u8, [value] => .ok (.u8 value)
  | .i8, [value] => .ok (.i8 value.toInt8)
  | .u16, [low, high] => .ok (.u16 (fromLeBytes low high))
  | .i16, [low, high] => .ok (.i16 (fromLeBytes low high).toInt16)
  | _, _ => .error .wrongLength

def ExpectedRead.flags (e : ExpectedRead) : UInt8 :=
  e.valueType.code ||| (if e.readable then 0x40 else 0) ||| (if e.writable then 0x80 else 0)

/-- Address, function, flags, type, length and checksum must all match. -/
def decodeRead (bytes : List UInt8) (expected : ExpectedRead) : Except CodecError MetakonValue :=
  if bytes.length > maxFrameBytes then .error .frameTooLong
  else if bytes.length ≠ expected.frameLen then .error .wrongLength
  else match validateBoundAndCrc bytes with
  | .error error => .error error
  | .ok _ =>
    let address := expected.address
    if bytes.take 4 ≠ [address.device, address.channel, address.register, 0] then .error .wrongAddress
    else if bytes[4]? ≠ some expected.flags then .error .wrongType
    else decodeValue expected.valueType (bytes.drop 5).dropLast

/-- The exact five-byte acknowledgement of a write. -/
def decodeAck (bytes : List UInt8) (expected : Address) : Except CodecError Unit :=
  if bytes.length > maxFrameBytes then .error .frameTooLong
  else if bytes.length ≠ 5 then .error .wrongLength
  else match validateBoundAndCrc bytes with
  | .error error => .error error
  | .ok _ =>
    if bytes.take 4 ≠ [expected.device, expected.channel, expected.register, 1] then .error .wrongAddress
    else .ok ()

inductive TemperatureReading
  | value (value : F64)
  | sensorFault
  deriving DecidableEq, Repr

/-- Register 1 as an engineering temperature; `i16::MIN` is the sensor-fault sentinel. -/
def scaleTemperature (value : MetakonValue) (scale : F64) : Except CodecError TemperatureReading :=
  if !scale.isFinite || decide (scale ≤ F64.zero) then .error .unrepresentable
  else match value with
  | .i16 raw =>
    if raw = Int16.minValue then .ok .sensorFault
    else if ¬ (-999 ≤ raw.toInt ∧ raw.toInt ≤ 9999) then .error .invalidValue
    else
      let engineering := (F64.ofInt raw.toInt).mul scale
      if engineering.isFinite then .ok (.value engineering) else .error .unrepresentable
  | _ => .error .wrongType

/-- Register 6 from a domain float, without truncation or clamping. -/
def encodeScaledI8 (value : Value) (scale : F64) : Except CodecError Int8 :=
  if !scale.isFinite || decide (scale ≤ F64.zero) then .error .unrepresentable
  else match value with
  | .float value =>
    if !value.isFinite then .error .unrepresentable
    else
      let raw := value.div scale
      if !raw.isFinite || !(raw.fract == F64.zero) ||
          !(decide (F64.ofInt (-100) ≤ raw) && decide (raw ≤ F64.ofInt 100)) then .error .unrepresentable
      else .ok (Int8.ofInt (raw.toIntSat (-128) 127))
  | _ => .error .wrongType

end LabRuntime.Metakon
