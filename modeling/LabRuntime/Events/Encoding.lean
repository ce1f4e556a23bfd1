import LabRuntime.Lib.JsonSize
import LabRuntime.Events.Log

/-! Event records as compact JSON. How a finite float is printed is a parameter; everything else
of a record's length is counted here. -/

namespace LabRuntime.Events

open JsonText (stringSize)

inductive Number
  | int (n : ℕ)
  | float (x : F64)

/-- Numbers of one kind compare by value. -/
instance : BEq Number where
  beq
    | .int a, .int b => a == b
    | .float a, .float b => a == b
    | _, _ => false

abbrev Json := JsonText.Value Number String

def applicationJsonLimit : ℕ := 16384 - 1

/-- The printer of finite floats. -/
class FloatText where
  text : F64 → String

def Number.size [FloatText] : Number → ℕ
  | .int n => n.repr.utf8ByteSize
  | .float x => (FloatText.text x).utf8ByteSize

def Json.size [FloatText] (v : Json) : ℕ := v.textSize Number.size

/-- `json!` of an optional value. -/
def optional {α : Type} (f : α → Json) : Option α → Json
  | none => .null
  | some a => f a

def TargetJson.json : TargetJson → Json
  | .parameter i p => .object [("instrument", .string i), ("parameter", .string p)]
  | .id i => .object [("id", optional .string i)]
  | .scope s => .object [("scope", .string s)]

def EventRecord.json (record : EventRecord Json) : Json :=
  .object [("v", .number (.int 1)), ("type", .string "event"), ("boot_id", .string record.bootId),
    ("seq", .string record.seq), ("published_at", .string record.publishedAt), ("kind", .string record.kind),
    ("target", record.target.json), ("data", record.data),
    ("request_id", optional (fun (scope, seq) => .object [("scope", .string scope), ("seq", .string seq)])
      record.requestId)]

/-- `encode_application_json(..).len()`: nothing once the frame limit is exceeded. -/
def encodedJson [FloatText] (v : Json) : Option ℕ :=
  if applicationJsonLimit < v.size then none else some v.size

instance [FloatText] : EventData Json where
  hostStatus state data := .object [("state", .string state), ("status", data)]
  encodedLength record := encodedJson record.json

/-- A record with smaller numbers encodes, and no longer, where one with greater numbers does. -/
class LawfulEventData (D : Type) [EventData D] : Prop where
  shorter : ∀ (bootId kind : String) (target : TargetJson) (data : D) {m n a b length : ℕ}, m ≤ n → a ≤ b →
    EventData.encodedLength (eventRecord bootId n b kind target data none) = some length →
    ∃ length' ≤ length, EventData.encodedLength (eventRecord bootId m a kind target data none) = some length'

/-- What a record adds to its boot identity, its numbers, its target and its data. -/
theorem EventRecord.size_json [FloatText] (bootId kind : String) (target : TargetJson) (data : Json) (n b : ℕ) :
    Json.size (eventRecord bootId n b kind target data none).json =
      100 + stringSize bootId + stringSize n.repr + stringSize b.repr + stringSize kind +
        Json.size target.json + Json.size data := by
  have hkeys : stringSize "v" = 3 ∧ stringSize "type" = 6 ∧ stringSize "event" = 7 ∧ stringSize "boot_id" = 9 ∧
      stringSize "seq" = 5 ∧ stringSize "published_at" = 14 ∧ stringSize "kind" = 6 ∧ stringSize "target" = 8 ∧
      stringSize "data" = 6 ∧ stringSize "request_id" = 12 := by decide +kernel
  obtain ⟨h1, h2, h3, h4, h5, h6, h7, h8, h9, h10⟩ := hkeys
  have hone : Number.size (.int 1) = 1 := (by decide : (1 : ℕ).repr.utf8ByteSize = 1)
  simp only [eventRecord, EventRecord.json, Json.size, JsonText.Value.textSize, JsonText.Value.memberSizes, optional, Option.map_none,
    List.length_cons, List.length_nil, h1, h2, h3, h4, h5, h6, h7, h8, h9, h10, hone]
  omega

instance [FloatText] : LawfulEventData Json where
  shorter bootId kind target data m n a b length hm ha h := by
    have hsize := EventRecord.size_json bootId kind target data n b
    have hsize' := EventRecord.size_json bootId kind target data m a
    have hseq := JsonText.stringSize_repr_le hm
    have hat := JsonText.stringSize_repr_le ha
    simp only [EventData.encodedLength, encodedJson] at h ⊢
    split_ifs at h with hbig
    obtain rfl := Option.some.inj h
    exact ⟨_, by omega, if_neg (by omega)⟩

end LabRuntime.Events
