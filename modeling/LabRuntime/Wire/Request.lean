import LabRuntime.Wire.Document
import Mathlib.Data.List.Infix

/-! Decoding one bounded application message. The JSON library is outside the repository: it is
a parameter, of which the code relies on one thing, that what it accepts is a JSON text read by
the visitor. -/

namespace LabRuntime.Wire

open JsonText

def FRAME_LIMIT : ℕ := 16384

def APPLICATION_JSON_LIMIT : ℕ := FRAME_LIMIT - 1

def PROTOCOL_VERSION : UInt64 := 1

inductive OperationKind where
  | query
  | mutation
deriving DecidableEq, Repr

structure OperationSpec where
  name : String
  kind : OperationKind
  argumentFields : List String

/-- Complete v1 operation registry. -/
def OPERATIONS : List OperationSpec := [
  ⟨"hello", .query, ["scope"]⟩,
  ⟨"discover", .query, []⟩,
  ⟨"discovery_page", .query, ["projection", "index"]⟩,
  ⟨"describe", .query, ["instrument"]⟩,
  ⟨"resource", .query, ["resource"]⟩,
  ⟨"configuration_status", .query, []⟩,
  ⟨"configuration_properties", .query, []⟩,
  ⟨"configuration_page", .query, ["projection", "index"]⟩,
  ⟨"latest", .query, ["signal"]⟩,
  ⟨"measurements_current", .query, []⟩,
  ⟨"measurements_page", .query, ["projection", "index"]⟩,
  ⟨"measurement_window", .query, ["signal", "max_records"]⟩,
  ⟨"controller", .query, ["controller"]⟩,
  ⟨"reference", .query, ["reference"]⟩,
  ⟨"component", .query, ["component"]⟩,
  ⟨"output", .query, ["actuator"]⟩,
  ⟨"output_acquire", .mutation, ["actuator", "expected_instance", "expected_epoch", "lease_lifetime_ns"]⟩,
  ⟨"output_renew", .mutation, ["actuator", "expected_instance", "expected_epoch", "lease_lifetime_ns"]⟩,
  ⟨"output_write", .mutation, ["actuator", "expected_instance", "expected_epoch", "value", "proposal_ttl_ns"]⟩,
  ⟨"output_safe", .mutation, ["actuator", "expected_instance", "expected_epoch"]⟩,
  ⟨"operation_status", .query, ["request_id"]⟩,
  ⟨"subscribe", .query, ["after", "filter"]⟩,
  ⟨"unsubscribe", .query, ["subscription"]⟩,
  ⟨"reference_configure", .mutation, ["reference", "expected_revision", "kind", "value", "target", "rate"]⟩,
  ⟨"reference_retune", .mutation, ["reference", "expected_revision", "target", "rate"]⟩,
  ⟨"controller_configure_pid", .mutation, ["controller", "expected_revision", "pid"]⟩,
  ⟨"controller_configure", .mutation, ["controller", "expected_revision", "pid", "ema", "max_input_age_ns",
    "max_tick_gap_ns", "lease_lifetime_ns", "proposal_ttl_ns"]⟩,
  ⟨"controller_start", .mutation, ["controller"]⟩,
  ⟨"controller_pause", .mutation, ["controller"]⟩,
  ⟨"controller_resume", .mutation, ["controller"]⟩,
  ⟨"controller_reset_failed", .mutation, ["controller"]⟩,
  ⟨"runtime_shutdown", .mutation, []⟩,
  ⟨"stage_configuration", .mutation, []⟩,
  ⟨"stage_simple_device_candidate", .mutation, ["expected_revision", "candidate"]⟩,
  ⟨"apply_configuration", .mutation, ["candidate_id", "expected_revision"]⟩,
  ⟨"reload_configuration", .mutation, []⟩,
  ⟨"property_configure", .mutation, ["target", "property", "value", "expected_revision"]⟩,
  ⟨"emulator_publish", .mutation, ["signal", "state", "value", "expected_generation"]⟩,
  ⟨"virtual_models_restart", .mutation, []⟩,
  ⟨"reconnect_resource", .mutation, ["resource", "expected_binding_generation"]⟩,
  ⟨"recording_status", .query, []⟩,
  ⟨"recording_start", .mutation, ["label"]⟩,
  ⟨"recording_stop", .mutation, ["run_id"]⟩,
  ⟨"experiment_annotate", .mutation, ["name", "data"]⟩,
  ⟨"history_read", .mutation, ["mode", "database_id", "boot_id", "run_id", "signal", "from_ns", "to_ns",
    "max_records", "cursor"]⟩,
  ⟨"history_page", .query, ["page_token"]⟩,
  ⟨"history_release", .query, ["page_token"]⟩]

def operationSpec (name : String) : Option OperationSpec := OPERATIONS.find? fun spec => spec.name = name

/-- Scope plus consecutive operation number. -/
structure WireRequestId where
  scope : String
  seq : ℕ
deriving DecidableEq, Repr

structure WireRequest where
  v : ℕ
  msgId : String
  op : String
  args : Parsed
  requestId : Option WireRequestId

/-- The members of an object, in key order. -/
abbrev Object := List (String × Parsed)

def asObject : Parsed → Option Object
  | .object members => some members
  | _ => none

def asStr : Parsed → Option String
  | .string s => some s
  | _ => none

def asU64 : Parsed → Option UInt64
  | .number (.unsigned n) => some n
  | _ => none

def okOr {α : Type} (x : Option α) (e : WireError) : Except WireError α :=
  match x with
  | some a => .ok a
  | none => .error e

def mapErr {ε ε' α : Type} (x : Except ε α) (f : ε → ε') : Except ε' α :=
  match x with
  | .ok a => .ok a
  | .error e => .error (f e)

/-- A string of 1 to 64 bytes. -/
def bounded (s : String) : Bool := 1 ≤ s.utf8ByteSize ∧ s.utf8ByteSize ≤ 64

def isAsciiDigit (c : Char) : Bool := '0' ≤ c ∧ c ≤ '9'

/-- Parse u64 without signs, leading zeros or JSON-number precision loss. -/
def decimalU64 (text : String) : Option ℕ :=
  if text.utf8ByteSize = 0 ∨ 20 < text.utf8ByteSize ∨ (1 < text.utf8ByteSize ∧ text.toList.head? = some '0') ∨
      text.toList.all isAsciiDigit = false then none
  else
    let n := text.toList.foldl (fun n c => n * 10 + (c.toNat - '0'.toNat)) 0
    if n < 2 ^ 64 then some n else none

def allowedKeys (object : Object) (keys : List String) : Except WireError Unit :=
  Checks.reject (object.any fun m => !keys.contains m.1) ⟨"unknown_field", "unknown field"⟩

def parseError (error : String) : WireError :=
  let known : List (String × String × String) :=
    [("duplicate_key", "duplicate_key", "duplicate JSON key"),
     ("json_values", "json_values", "JSON value limit"),
     ("string_too_large", "string_too_large", "JSON string limit"),
     ("nonfinite_number", "invalid_number", "nonfinite number")]
  match known.find? fun k => decide (k.1.toList <:+: error.toList) with
  | some (_, code, message) => ⟨code, message⟩
  | none => ⟨"invalid_json", "invalid JSON"⟩

def pidFields : List String := ["kp", "ki", "kd", "output_min", "output_max"]

/-- The objects nested in an operation's arguments, with their permitted fields. -/
def nestedFields (op : String) (args : Object) : Except WireError (List (String × List String)) :=
  if op = "latest" ∨ op = "measurement_window" then .ok [("signal", ["instrument", "parameter"])]
  else if op = "output" ∨ op = "output_acquire" ∨ op = "output_renew" ∨ op = "output_write" ∨ op = "output_safe" then
    .ok [("actuator", ["instrument", "parameter"])]
  else if op = "operation_status" then .ok [("request_id", ["scope", "seq"])]
  else if op = "subscribe" then .ok [("after", ["boot_id", "seq"]), ("filter", ["kinds", "targets"])]
  else if op = "controller_configure_pid" then .ok [("pid", pidFields)]
  else if op = "controller_configure" then
    .ok [("pid", pidFields), ("ema", ["time_constant_ns", "warmup_samples"])]
  else if op = "recording_stop" then .ok [("run_id", ["boot_id", "run_no"])]
  else if op = "history_read" then
    if (args.lookup "mode").bind asStr = some "runs" then do
      mapErr (allowedKeys args ["mode", "database_id", "max_records", "cursor"])
        fun _ => ⟨"invalid_args", "unknown runs field"⟩
      .ok []
    else if (args.lookup "mode").bind asStr = some "measurements" then do
      mapErr (allowedKeys args ["mode", "database_id", "boot_id", "run_id", "signal", "from_ns", "to_ns",
        "max_records", "cursor"]) fun _ => ⟨"invalid_args", "unknown measurement field"⟩
      .ok [("run_id", ["boot_id", "run_no"]), ("signal", ["instrument", "parameter"])]
    else .ok []
  else .ok []

def validateNestedArgs (op : String) (args : Object) : Except WireError Unit := do
  let nested ← nestedFields op args
  nested.forM fun field => do
    let obj ← okOr ((args.lookup field.1).bind asObject) ⟨"invalid_args", "nested args must be objects"⟩
    mapErr (allowedKeys obj field.2) fun _ => ⟨"invalid_args", "unknown nested args field"⟩

def requestIdOf (object : Object) : Except WireError WireRequestId := do
  let id ← okOr ((object.lookup "request_id").bind asObject) ⟨"missing_request_id", "commands need request_id"⟩
  mapErr (allowedKeys id ["scope", "seq"]) fun _ => ⟨"invalid_id", "request_id fields"⟩
  let scope ← okOr (((id.lookup "scope").bind asStr).filter bounded) ⟨"invalid_id", "invalid operation scope"⟩
  let seq ← okOr (((id.lookup "seq").bind asStr).bind decimalU64)
    ⟨"invalid_id", "operation seq must be canonical decimal"⟩
  .ok ⟨scope, seq⟩

/-- The checks after parsing. -/
def decodeRoot (root : Parsed) : Except WireError WireRequest := do
  let object ← okOr (asObject root) ⟨"invalid_shape", "request must be an object"⟩
  allowedKeys object ["v", "msg_id", "op", "args", "request_id"]
  let v ← okOr ((object.lookup "v").bind asU64) ⟨"invalid_shape", "v must be integer"⟩
  Checks.reject (v ≠ PROTOCOL_VERSION) ⟨"version_mismatch", "only protocol version 1 is supported"⟩
  let msgId ← okOr (((object.lookup "msg_id").bind asStr).filter bounded)
    ⟨"invalid_id", "msg_id must be 1..64 bytes"⟩
  let op ← okOr (((object.lookup "op").bind asStr).filter bounded) ⟨"invalid_shape", "op must be a bounded string"⟩
  let operation := operationSpec op
  let args ← okOr (object.lookup "args") ⟨"invalid_args", "args object is required"⟩
  let argObject ← okOr (asObject args) ⟨"invalid_args", "args must be an object"⟩
  match operation with
  | some spec => do
    mapErr (allowedKeys argObject spec.argumentFields) fun _ => ⟨"invalid_args", "unknown args field"⟩
    validateNestedArgs op argObject
  | none => .ok ()
  let mutating := operation.any fun spec => spec.kind = .mutation
  let requestId ←
    if mutating ∨ (operation.isNone ∧ (object.lookup "request_id").isSome) then do
      let id ← requestIdOf object
      .ok (some id)
    else if (object.lookup "request_id").isSome then .error ⟨"invalid_args", "queries have no request_id"⟩
    else .ok none
  .ok ⟨1, msgId, op, args, requestId⟩

def validUtf8 (body : List UInt8) : Bool := (ByteArray.mk body.toArray).validateUTF8

/-- The JSON library: how it reads scalars, and what deserializing a text into the visitor gives,
with whether the text ends there. -/
structure SerdeJson where
  scalars : Scalars
  deserialize : List UInt8 → Except String (Parsed × Bool)

/-- What it accepts to the end is a JSON text, read by the visitor. -/
def SerdeJson.Sound (serde : SerdeJson) : Prop :=
  ∀ body root, serde.deserialize body = .ok (root, true) → ∃ doc, Text body doc ∧ unique serde.scalars doc = .ok root

def decodeApplicationJson (serde : SerdeJson) (body : List UInt8) : Except WireError WireRequest := do
  Checks.reject (APPLICATION_JSON_LIMIT < body.length) ⟨"frame_too_large", "frame exceeds 16384 bytes"⟩
  Checks.reject (validUtf8 body = false) ⟨"invalid_utf8", "frame is not UTF-8"⟩
  lexicalLimits body
  let (root, ended) ← mapErr (serde.deserialize body) parseError
  Checks.reject (ended = false) ⟨"invalid_json", "trailing JSON data"⟩
  decodeRoot root

/-- A byte string that is a JSON text. -/
def ValidJson (body : List UInt8) (doc : Document) : Prop := validUtf8 body = true ∧ Text body doc

theorem mapErr_ok {ε ε' α : Type} {x : Except ε α} {f : ε → ε'} {a : α} : mapErr x f = .ok a ↔ x = .ok a := by
  cases x with
  | error e => simp [mapErr]
  | ok b => simp [mapErr]

/-- What is decoded was a JSON text within the limits, and passed the checks after parsing. -/
theorem decodeApplicationJson_ok {serde : SerdeJson} (hserde : serde.Sound) {body : List UInt8} {r : WireRequest}
    (h : decodeApplicationJson serde body = .ok r) :
    ∃ doc root, ValidJson body doc ∧ lexicalLimits body = .ok () ∧ unique serde.scalars doc = .ok root ∧
      decodeRoot root = .ok r := by
  unfold decodeApplicationJson at h
  obtain ⟨-, h⟩ := Checks.reject_bind.1 h
  obtain ⟨hutf8, h⟩ := Checks.reject_bind.1 h
  obtain ⟨_, hlimits, h⟩ := Checks.bind_ok.1 h
  obtain ⟨⟨root, ended⟩, hread, h⟩ := Checks.bind_ok.1 h
  obtain ⟨hended, h⟩ := Checks.reject_bind.1 h
  obtain rfl : ended = true := by simpa using hended
  obtain ⟨doc, htext, hunique⟩ := hserde body root (mapErr_ok.1 hread)
  exact ⟨doc, root, ⟨by simpa using hutf8, htext⟩, hlimits, hunique, h⟩

/-- The frame limits count what the text contains: the byte scan admits a JSON text exactly when
its nesting and its values are within bounds, both agree with the shape of the parsed value, and
nothing but JSON is decoded. -/
theorem frame_limits_exact (serde : SerdeJson) (hserde : serde.Sound) :
    (∀ body doc, ValidJson body doc →
      (lexicalLimits body = .ok () ↔ doc.nesting ≤ DEPTH_LIMIT ∧ doc.count ≤ VALUE_LIMIT)) ∧
    (∀ doc root, UniqueKeys serde.scalars doc → parsed serde.scalars doc = .ok root →
      (jsonShape root).1 = doc.count ∧ (doc.isContainer = true → doc.nesting = (jsonShape root).2 + 1)) ∧
    (∀ doc root, unique serde.scalars doc = .ok root →
      UniqueKeys serde.scalars doc ∧ parsed serde.scalars doc = .ok root) ∧
    (∀ body, (∀ doc, ¬ ValidJson body doc) → ∃ e, decodeApplicationJson serde body = .error e) ∧
    (∀ (body : List UInt8) (s : Scan), body.foldlM lexicalStep Scan.start = .ok s →
      s.depth ≤ DEPTH_LIMIT ∧ s.values ≤ VALUE_LIMIT) := by
  refine ⟨fun body doc h => lexicalLimits_text h.2, fun doc root hkeys h => ?_,
    fun doc root h => (unique_ok doc root h).symm, fun body h => ?_, fun body s =>
    counters_bounded body Scan.start s (by decide) (by decide)⟩
  · have hshape := jsonShape_parsed h hkeys
    refine ⟨congrArg Prod.fst hshape, fun hcontainer => ?_⟩
    have hnesting : 0 < doc.nesting := by
      cases doc <;> first | exact Nat.succ_pos _ | cases hcontainer
    rw [hshape]
    exact (Nat.sub_add_cancel hnesting).symm
  · rcases hdecode : decodeApplicationJson serde body with e | r
    · exact ⟨e, rfl⟩
    · obtain ⟨doc, root, hvalid, -⟩ := decodeApplicationJson_ok hserde hdecode
      exact absurd hvalid (h doc)

/-- A text with a blank in an empty array: `[null, [ ]]`. -/
def sampleText : List UInt8 := "[null, [ ]]".toList.map byte

def sampleDocument : Document := .array [.null, .array []]

def sampleRoot : Parsed := .array [.null, .array []]

theorem sampleText_valid : ValidJson sampleText sampleDocument := by
  refine ⟨by decide +kernel, [], sampleText, [], by simp [Blank], ?_, by simp [Blank], by simp⟩
  have blank : Blank [0x20] := by simp [Blank]
  have none : Blank [] := by simp [Blank]
  have inside := Spells.elements none Spells.null none (Spells.element blank (Spells.emptyArray blank) none)
  exact Spells.array inside

/-- The library on the sample text and on texts that are no JSON. -/
def sampleSerde : SerdeJson where
  scalars := ⟨fun _ => .error "invalid number", fun _ => .error "invalid string"⟩
  deserialize body :=
    if body = sampleText then .ok (sampleRoot, true) else .error "EOF while parsing a list at line 1 column 1"

theorem sampleSerde_sound : sampleSerde.Sound := by
  intro body root h
  unfold sampleSerde at h
  dsimp only at h
  split_ifs at h with hbody
  cases h
  exact ⟨sampleDocument, hbody ▸ sampleText_valid.2, rfl⟩

theorem frame_limits_sample :
    lexicalLimits sampleText = .ok () ∧ (jsonShape sampleRoot).1 = 3 ∧
      2 = (jsonShape sampleRoot).2 + 1 ∧ ∃ e, decodeApplicationJson sampleSerde [byte '['] = .error e := by
  obtain ⟨hlimits, hshape, hunique, hinvalid, -⟩ := frame_limits_exact sampleSerde sampleSerde_sound
  have hread := hunique sampleDocument sampleRoot rfl
  obtain ⟨hcount, hnesting⟩ := hshape sampleDocument sampleRoot hread.1 hread.2
  refine ⟨(hlimits _ _ sampleText_valid).2 (by decide), hcount, hnesting rfl, hinvalid _ fun doc hdoc => ?_⟩
  -- an open bracket is left
  have hbalanced := (scans_text hdoc.2).2.2
  rw [← (scans_text hdoc.2).1] at hbalanced
  exact absurd hbalanced (by decide)

end LabRuntime.Wire
