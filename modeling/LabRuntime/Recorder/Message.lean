import LabRuntime.Model
import LabRuntime.Lib.Spans

/-! What the owner hands to the storage worker: records with the allocation they are charged for,
the messages that carry them, and the credit of each message. Sizes are `usize`, times are
nanoseconds. -/

namespace LabRuntime.Recorder

abbrev StorageError := String

def maxGroups : ℕ := 32 + 2 * 2
def maxBatchGroups : ℕ := 4
def maxHistoryJobs : ℕ := 8
def maxRecords : ℕ := (4 + 2) * 256 + 3 + 2 * 3
def maxBytes : ℕ := 4 * 1024 * 1024
def maxGroupBytes : ℕ := 512 * 1024

/-- Slots of the bounded channel between the owner and the worker. -/
def fifoCapacity : ℕ := maxGroups + maxHistoryJobs + 6

/-- `usize::saturating_add` and `saturating_mul` stop here. -/
def saturated (n : ℕ) : ℕ := min n u64Max

/-- `size_of::<RecordingFact>()`, which the compiler chooses. -/
structure FactLayout where
  size : ℕ
  small : size ≤ 4096

structure RecorderLimits where
  records : ℕ
  bytes : ℕ
  groups : ℕ
  deriving DecidableEq, Repr

def RecorderLimits.default : RecorderLimits := { records := maxRecords, bytes := maxBytes, groups := maxGroups }

def RecorderLimits.valid (limits : RecorderLimits) : Bool :=
  1 ≤ limits.records && limits.records ≤ maxRecords && 256 ≤ limits.bytes && limits.bytes ≤ maxBytes &&
    1 ≤ limits.groups && limits.groups ≤ maxGroups

/-! ### Credit -/

@[ext] structure Credit where
  groups : ℕ
  records : ℕ
  bytes : ℕ
  deriving DecidableEq, Repr

namespace Credit

instance : Zero Credit := ⟨⟨0, 0, 0⟩⟩
instance : Add Credit := ⟨fun a b => ⟨a.groups + b.groups, a.records + b.records, a.bytes + b.bytes⟩⟩

@[simp] theorem zero_groups : (0 : Credit).groups = 0 := rfl
@[simp] theorem zero_records : (0 : Credit).records = 0 := rfl
@[simp] theorem zero_bytes : (0 : Credit).bytes = 0 := rfl
@[simp] theorem add_groups (a b : Credit) : (a + b).groups = a.groups + b.groups := rfl
@[simp] theorem add_records (a b : Credit) : (a + b).records = a.records + b.records := rfl
@[simp] theorem add_bytes (a b : Credit) : (a + b).bytes = a.bytes + b.bytes := rfl

instance : AddCommMonoid Credit where
  add_assoc a b c := by ext <;> simp [Nat.add_assoc]
  zero_add a := by ext <;> simp
  add_zero a := by ext <;> simp
  add_comm a b := by ext <;> simp [Nat.add_comm]
  nsmul := nsmulRec

instance : IsLeftCancelAdd Credit where
  add_left_cancel a b c h := by
    have hg := congrArg groups h
    have hr := congrArg records h
    have hb := congrArg bytes h
    simp only [add_groups, add_records, add_bytes] at hg hr hb
    ext <;> omega

def contains (a b : Credit) : Bool := b.groups ≤ a.groups && b.records ≤ a.records && b.bytes ≤ a.bytes

/-- What `a` exceeds `earlier` by, where it does in every dimension. -/
def delta (a earlier : Credit) : Option Credit :=
  if a.contains earlier then
    some ⟨a.groups - earlier.groups, a.records - earlier.records, a.bytes - earlier.bytes⟩
  else none

theorem contains_iff {a b : Credit} :
    a.contains b = true ↔ b.groups ≤ a.groups ∧ b.records ≤ a.records ∧ b.bytes ≤ a.bytes := by
  simp [contains, and_assoc]

theorem contains_add (a b : Credit) : (a + b).contains a = true := by
  simp [contains_iff]

theorem delta_eq_some {a b c : Credit} : a.delta b = some c ↔ a = b + c := by
  unfold delta
  split_ifs with h
  · have hle := contains_iff.1 h
    simp only [Option.some.injEq, Credit.ext_iff, add_groups, add_records, add_bytes]
    omega
  · simp only [false_iff]
    rintro rfl
    exact h (contains_add b c)

theorem delta_eq_none {a b : Credit} : a.delta b = none ↔ ¬ a.contains b = true := by
  unfold delta
  split_ifs with h <;> simp [h]

@[simp] theorem add_delta (a b : Credit) : (a + b).delta a = some b := delta_eq_some.2 rfl

end Credit

/-! ### Records -/

/-- An owned text and how far its allocation exceeds it. -/
structure Text where
  content : String
  spare : ℕ
  deriving DecidableEq, Repr

def Text.len (text : Text) : ℕ := text.content.utf8ByteSize
def Text.capacity (text : Text) : ℕ := text.len + text.spare

/-- `into_boxed_str().into_string()`. -/
def Text.compact (text : Text) : Text := { text with spare := 0 }

@[simp] theorem Text.compact_capacity (text : Text) : text.compact.capacity = text.len := rfl

inductive RecordingPolicy
  | bestEffort | required
  deriving DecidableEq, Repr

/-- A canonical JSON text, by its length and whether it parses. -/
structure Document where
  len : ℕ
  parses : Bool
  deriving DecidableEq, Repr

structure BoundarySnapshot where
  time : ℕ
  data : Document
  deriving DecidableEq, Repr

def BoundarySnapshot.valid (boundary : BoundarySnapshot) : Bool :=
  boundary.data.len ≠ 0 && boundary.data.len ≤ 64 * 1024 && boundary.data.parses

structure RecorderGap where
  reason : String
  time : ℕ
  firstMissingFact : Option ℕ
  knownMissingCount : Option ℕ
  lastAcceptedFact : Option ℕ
  deriving DecidableEq, Repr

def RecorderGap.valid (gap : RecorderGap) : Bool :=
  gap.reason ≠ "" && gap.reason.utf8ByteSize ≤ 512 && gap.knownMissingCount.all (0 < ·)

structure OperationRecord where
  scope : Text
  requestSeq : ℕ
  command : String
  phase : String
  data : Text
  outcomeBasis : String
  time : ℕ
  deriving DecidableEq, Repr

namespace OperationRecord

def charge (operation : OperationRecord) : Option ℕ :=
  (checkedAdd operation.scope.capacity operation.data.capacity).bind (checkedAdd · 256)

def valid (operation : OperationRecord) : Bool :=
  operation.scope.len ≤ 64 && 0 < operation.requestSeq && operation.data.len ≤ 16 * 1024 &&
    (operation.phase = "accepted" || operation.phase = "completed" || operation.phase = "failed") &&
    (operation.outcomeBasis = "application_admission" || operation.outcomeBasis = "domain_result")

/-- The record with its unused allocation returned. -/
def compact (operation : OperationRecord) : OperationRecord :=
  { operation with scope := operation.scope.compact, data := operation.data.compact }

/-- The terminal of a stop, which may follow the run it ended. -/
def stopTerminal (operation : OperationRecord) : Bool :=
  operation.command = "recording_stop" && (operation.phase = "completed" || operation.phase = "failed")

/-- Texts are compared by content, not by allocation. -/
def same (a b : OperationRecord) : Bool :=
  a.scope.content = b.scope.content && a.requestSeq = b.requestSeq && a.command = b.command &&
    a.phase = b.phase && a.data.content = b.data.content && a.time = b.time && a.outcomeBasis = b.outcomeBasis

end OperationRecord

/-- `bounded` is the outcome of parsing the data and checking its nesting and sizes. -/
structure AnnotationRecord where
  scope : Text
  requestSeq : ℕ
  name : Text
  dataJson : Text
  bounded : Bool
  time : ℕ
  deriving DecidableEq, Repr

namespace AnnotationRecord

def valid (note : AnnotationRecord) : Bool :=
  note.scope.len ≤ 64 && 0 < note.requestSeq && !isBlank note.name.content &&
    note.name.len ≤ 64 && note.dataJson.len ≤ 2 * 1024 && note.bounded

def charge (note : AnnotationRecord) : Option ℕ := do
  let total ← checkedAdd note.scope.capacity note.name.capacity
  let total ← checkedAdd total note.dataJson.capacity
  let total ← checkedAdd total (← if note.dataJson.len * 3 ≤ u64Max then some (note.dataJson.len * 3) else none)
  checkedAdd total 512

end AnnotationRecord

structure ConfigurationLifecycleRecord where
  operationId : ℕ
  operationKind : String
  baseRevision : ℕ
  committedRevision : ℕ
  affected : List Text
  reason : Option Text
  time : ℕ
  deriving DecidableEq, Repr

namespace ConfigurationLifecycleRecord

def charge (record : ConfigurationLifecycleRecord) : Option ℕ := do
  let total ← record.affected.foldlM (fun total item => do checkedAdd total (← checkedAdd item.capacity 64)) 1024
  checkedAdd total (record.reason.elim 0 Text.capacity)

def revisionValid (record : ConfigurationLifecycleRecord) : Bool :=
  if record.operationKind ∈ ["reload_configuration", "apply_configuration", "property_configure"] then
    checkedAdd record.baseRevision 1 = some record.committedRevision
  else if record.operationKind ∈ ["reload_managed_sources", "restart_models", "virtual_models_restart",
      "emulator_publish", "reconnect_resource"] then
    record.committedRevision = record.baseRevision
  else false

def valid (record : ConfigurationLifecycleRecord) : Bool :=
  0 < record.operationId && 0 < record.baseRevision && record.revisionValid && record.affected.length ≤ 256 &&
    record.affected.all (fun item => item.len ≠ 0 && item.len ≤ 128) && record.reason.all (fun reason => reason.len ≤ 512) &&
    record.charge.any (· ≤ 64 * 1024)

end ConfigurationLifecycleRecord

/-- What the recorder reads of a captured fact: its number, and the text of a measurement. -/
inductive Fact
  | measurement (sequence : ℕ) (text : Option Text) (lineage : Bool)
  | output (sequence : ℕ)
  | controller (sequence : ℕ)
  | reference (sequence : ℕ)
  deriving DecidableEq, Repr

namespace Fact

def sequence : Fact → ℕ
  | .measurement sequence _ _ => sequence
  | .output sequence => sequence
  | .controller sequence => sequence
  | .reference sequence => sequence

def isReference : Fact → Bool
  | .reference _ => true
  | _ => false

end Fact

def factCharge : Fact → ℕ
  | .measurement _ text lineage =>
    512 + (if lineage then 512 else 0) +
      text.elim 0 fun value => saturated (value.capacity + saturated (value.len * 6))
  | _ => 512

/-- A causal group in the vector it is transferred in. -/
structure Group where
  facts : List Fact
  spare : ℕ
  deriving DecidableEq, Repr

def Group.capacity (group : Group) : ℕ := group.facts.length + group.spare

/-- The bytes a group is charged for: its vector and the worst-case text of its facts. -/
def Group.bytes (layout : FactLayout) (group : Group) : ℕ :=
  group.facts.foldl (fun total fact => saturated (total + factCharge fact)) (saturated (group.capacity * layout.size))

def Group.oversizedRecord (group : Group) : Bool := group.facts.any fun fact => 64 * 1024 < factCharge fact

/-! ### Credit of a synchronous Reference operation -/

def completionRecords : ℕ := 2
def completionBytes (layout : FactLayout) : ℕ := 16 * 1024 + 4 * 64 + 1024 + layout.size
def acceptedBytes : ℕ := 16 * 1024 + 64 + 256

/-- Two accepted and completion pairs, kept free of other traffic. -/
def protectedCredit (layout : FactLayout) : Credit :=
  { groups := 4, records := 6, bytes := 2 * (acceptedBytes + completionBytes layout) }

/-! ### Messages -/

/-- A stop or shutdown summary: its encoded length, whether it is an object, and the length of its
`pending_operations` array where it has one. -/
structure Summary where
  len : ℕ
  isObject : Bool
  pendingOperations : Option ℕ
  deriving DecidableEq, Repr

/-- The hash of a frozen activation manifest. -/
abbrev ActivationRoot := ℕ

/-- What makes an activation a live one: the lifecycle record, its reserved bytes, its record number
and its generation. -/
structure LiveActivation where
  record : ConfigurationLifecycleRecord
  bytes : ℕ
  assigned : ℕ
  generation : ℕ
  deriving DecidableEq, Repr

/-- A transferred fact group. -/
structure FactGroup where
  facts : List Fact
  bytes : ℕ
  submittedAt : ℕ
  firstRecord : ℕ
  deriving DecidableEq, Repr

inductive Message
  | activation (root : ActivationRoot) (lifecycle : Option LiveActivation)
  | start (label : String) (policy : RecordingPolicy) (submittedAt : ℕ) (boundary : BoundarySnapshot)
      (firstRecord : ℕ)
  | facts (group : FactGroup)
  | clockAnchor (assigned : ℕ)
  | operation (operation : OperationRecord) (bytes assigned : ℕ)
  | referenceAccepted (operation : OperationRecord) (bytes assigned : ℕ)
  | referenceCompletion (fact : Option Fact) (capturedAt : ℕ) (terminal : OperationRecord)
      (bytes firstRecord : ℕ)
  | annotation (note : AnnotationRecord) (bytes assigned : ℕ)
  | gapSeal (gap : RecorderGap) (assigned : ℕ)
  | probe (submittedAt : ℕ)
  | history (job : ℕ)
  | runs (job : ℕ)
  | stop (summary : Summary) (requestedAt firstRecord : ℕ)
  | finish (summary : Summary) (time firstRecord : ℕ)
  deriving DecidableEq, Repr

namespace Message

/-- The first record number the owner assigned; a message without records has none. -/
def firstRecord : Message → ℕ
  | .activation _ lifecycle => lifecycle.elim 0 LiveActivation.assigned
  | .start _ _ _ _ first => first
  | .facts group => group.firstRecord
  | .clockAnchor assigned => assigned
  | .operation _ _ assigned => assigned
  | .referenceAccepted _ _ assigned => assigned
  | .referenceCompletion _ _ _ _ first => first
  | Message.annotation _ _ assigned => assigned
  | .gapSeal _ assigned => assigned
  | .probe _ => 0
  | .history _ => 0
  | .runs _ => 0
  | .stop _ _ first => first
  | .finish _ _ first => first

/-- How many records a message becomes. -/
def records : Message → ℕ
  | .activation _ lifecycle => if lifecycle.isSome then 1 else 0
  | .start .. => 2
  | .facts group => group.facts.length
  | .referenceCompletion fact _ _ _ _ => 1 + if fact.isSome then 1 else 0
  | .clockAnchor _ => 1
  | .operation .. => 1
  | .referenceAccepted .. => 1
  | Message.annotation .. => 1
  | .gapSeal .. => 1
  | .probe _ => 0
  | .history _ => 0
  | .runs _ => 0
  | .stop .. => 2
  | .finish .. => 2

/-- The credit a message holds until its receipt. -/
def credit : Message → Credit
  | .activation _ (some lifecycle) => ⟨1, 1, lifecycle.bytes⟩
  | .facts group => ⟨1, group.facts.length, group.bytes⟩
  | .operation _ bytes _ => ⟨1, 1, bytes⟩
  | .referenceAccepted _ bytes _ => ⟨1, 1, bytes⟩
  | .referenceCompletion fact _ _ bytes _ => ⟨1, 1 + if fact.isSome then 1 else 0, bytes⟩
  | Message.annotation _ bytes _ => ⟨1, 1, bytes⟩
  | _ => 0

/-- The part of it that is Reference credit. -/
def referenceCredit : Message → Credit
  | .referenceAccepted _ bytes _ => ⟨1, 1, bytes⟩
  | .referenceCompletion fact _ _ bytes _ => ⟨1, 1 + if fact.isSome then 1 else 0, bytes⟩
  | _ => 0

/-- The last record number of a message. -/
def lastRecord (m : Message) : ℕ := Spans.last firstRecord records m

/-- Facts are never sent as an empty group. -/
def solid : Message → Bool
  | .facts group => group.facts ≠ []
  | _ => true

theorem credit_eq_zero {m : Message} (hsolid : m.solid = true) (h : m.records = 0) : m.credit = 0 := by
  cases m with
  | activation _ lifecycle => cases lifecycle with
    | none => rfl
    | some _ => simp [records] at h
  | facts group => simp_all [records, solid]
  | referenceCompletion fact => simp [records] at h
  | _ => first | rfl | simp [records] at h

end Message
end LabRuntime.Recorder
