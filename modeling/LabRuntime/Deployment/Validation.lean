import LabRuntime.Deployment.Dto
import LabRuntime.Managed.MovingMean
import LabRuntime.Lib.Utf8
import LabRuntime.Simple.Schema

/-! The structural check of a deployment document. -/

namespace LabRuntime.Deployment

open LabRuntime

/-! ### Refusals -/

inductive ConfigurationError
  | tooLarge
  | invalidUtf8
  | syntaxBound (reason : String)
  | invalidToml (reason : String)
  | invalidConfiguration (reason : String)
  | invalidArtifact (reason : String)
  deriving DecidableEq, Repr

def boundedMessage (message : String) : String := String.ofList (message.toList.take 256)

namespace ConfigurationError

def invalid (reason : String) : ConfigurationError := .invalidConfiguration (boundedMessage reason)

def artifactText (reason : String) : ConfigurationError := .invalidArtifact (boundedMessage reason)

end ConfigurationError

abbrev Checked := Except ConfigurationError

def refuse (bad : Prop) [Decidable bad] (reason : String) : Checked Unit := Checks.reject bad (.invalid reason)

/-! ### Fields -/

def isAsciiAlpha (c : Char) : Bool := ('a' ≤ c && c ≤ 'z') || ('A' ≤ c && c ≤ 'Z')

def isAsciiDigit (c : Char) : Bool := '0' ≤ c && c ≤ '9'

def validateKey (key : String) : Checked Unit :=
  refuse (64 < key.utf8ByteSize ∨ (key.toList.head?.any isAsciiAlpha) = false ∨
    (key.toList.tail.all fun c => isAsciiAlpha c || isAsciiDigit c || c == '_' || c == '-') = false)
    "invalid logical key"

def validateDisplayName (name : String) : Checked Unit :=
  refuse (isBlank name = true ∨ 128 < name.utf8ByteSize) "invalid display name"

def validateNonzero (value : ℕ) (label : String) : Checked Unit := refuse (value = 0) (label ++ " must be nonzero")

def validatePeriod (value : ℕ) (label : String) : Checked Unit :=
  refuse (¬ (1 ≤ value ∧ value ≤ 60000)) (label ++ " must be 1..=60000 ms")

def validateTransactionTime (value : ℕ) (label : String) : Checked Unit :=
  refuse (¬ (1 ≤ value ∧ value ≤ 60000)) (label ++ " must be 1..=60000 ms")

def validateHistory (value : ℕ) : Checked Unit :=
  refuse (¬ (1 ≤ value ∧ value ≤ 1024)) "history capacity out of range"

/-- `str::parse::<u16>`. -/
def parseU16 (text : List Char) : Option ℕ :=
  let digits := if text.head? == some '+' then text.tail else text
  if digits.isEmpty || !digits.all isAsciiDigit then none
  else
    let value := digits.foldl (fun value c => 10 * value + (c.toNat - '0'.toNat)) 0
    if value ≤ 65535 then some value else none

/-- What stands before and after the first occurrence of a separator. -/
def splitOnce (separator : List Char) : List Char → Option (List Char × List Char)
  | [] => if separator.isEmpty then some ([], []) else none
  | c :: text =>
    if separator.isPrefixOf (c :: text) then some ([], (c :: text).drop separator.length)
    else (splitOnce separator text).map fun parts => (c :: parts.1, parts.2)

/-- What stands before and after the last occurrence of a character. -/
def rsplitOnce (separator : Char) (text : List Char) : Option (List Char × List Char) :=
  (splitOnce [separator] text.reverse).map fun parts => (parts.2.reverse, parts.1.reverse)

def allowedOrigins : ℕ := 16
def originBytes : ℕ := 256

def validateOrigin (origin : String) : Except String Unit := do
  let text := origin.toList
  Checks.reject (text = [] ∨ originBytes < origin.utf8ByteSize ∨ text.all (fun c => decide (c.toNat < 128)) = false)
    "invalid WebSocket allowed_origin length"
  let rest := ((splitOnce [':', '/', '/'] text).map Prod.snd).getD text
  Checks.reject (text.contains '*' || text.any (['?', '#', '@'].contains ·) || rest.contains '/')
    "invalid WebSocket allowed_origin syntax"
  match splitOnce [':', '/', '/'] text with
  | none => .error "invalid WebSocket allowed_origin syntax"
  | some (scheme, authority) => do
    Checks.reject (scheme ≠ "http".toList ∧ scheme ≠ "https".toList) "WebSocket allowed_origin scheme must be http or https"
    match rsplitOnce ':' authority with
    | none => .error "WebSocket allowed_origin requires an explicit port"
    | some (host, port) => do
      Checks.reject (host = [] ∨ 253 < host.length ∨ host.head? = some '.' ∨ host.getLast? = some '.' ∨
          host.head? = some '-' ∨ host.getLast? = some '-' ∨
          host.all (fun c => ('a' ≤ c && c ≤ 'z') || isAsciiDigit c || c == '.' || c == '-') = false)
        "invalid WebSocket allowed_origin host"
      match parseU16 port with
      | none => .error "invalid WebSocket allowed_origin port"
      | some port => Checks.reject (port = 0) "WebSocket allowed_origin port must be nonzero"

def validateOrigins (origins : List String) : Except String Unit := do
  Checks.reject (origins = []) "enabled WebSocket endpoint requires allowed_origins"
  Checks.reject (allowedOrigins < origins.length) "too many WebSocket allowed_origins"
  let _ ← origins.foldlM (fun unique origin => do
    validateOrigin origin
    Checks.reject (origin ∈ unique) "duplicate WebSocket allowed_origin"
    return origin :: unique) ([] : List String)
  return ()

def isControl (c : Char) : Bool := c.toNat < 0x20 || (0x7f ≤ c.toNat && c.toNat ≤ 0x9f)

def linuxSerialPath (port : List Char) : Except String String :=
  if 4096 < Utf8.size port ∨ port.any isControl = true ∨
      ((port.drop 5).splitOn '/').any (fun part => part == [] || part == ['.'] || part == ['.', '.']) = true then
    .error "invalid Linux serial device path"
  else .ok (String.ofList port)

def normalizeSerialPort (port : String) : Except String String :=
  let port := ((port.toList.dropWhile isWhitespace).reverse.dropWhile isWhitespace).reverse
  if "/dev/".toList.isPrefixOf port then linuxSerialPath port
  else if !("COM".toList.isPrefixOf port || "com".toList.isPrefixOf port) then .error "Windows port must be COM<number>"
  else
    match parseU16 (port.drop 3) with
    | none => .error "invalid COM port"
    | some number => if number = 0 then .error "invalid COM port" else .ok ("COM" ++ number.repr)

def validateSerial (r : ResourceDto) : Checked Unit :=
  refuse (¬ (1 ≤ r.baudRate ∧ r.baudRate ≤ 4000000) ∨ ¬ (5 ≤ r.dataBits ∧ r.dataBits ≤ 8) ∨
      ¬ (r.stopBits = 1 ∨ r.stopBits = 2) ∨ ¬ (1 ≤ r.readTimeoutMs ∧ r.readTimeoutMs ≤ 250) ∨
      ¬ (1 ≤ r.writeTimeoutMs ∧ r.writeTimeoutMs ≤ 250) ∨ ¬ (1 ≤ r.openTimeoutMs ∧ r.openTimeoutMs ≤ 2000) ∨
      ¬ (1 ≤ r.recoveryTimeoutMs ∧ r.recoveryTimeoutMs ≤ 2000))
    "invalid bounded serial settings"

end LabRuntime.Deployment
