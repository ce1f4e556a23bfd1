import Mathlib.Data.String.Basic
import LabRuntime.Lib.OrderedMap
import LabRuntime.Output.Basic

/-! Session scopes and request identities: process-local, bounded coordination state. An
accepted number stays below its scope's high water after its record is evicted. -/

namespace LabRuntime.Sessions

/-! ### Bounds -/

def maxScopes : ℕ := 16
def maxPending : ℕ := 64
def maxTerminal : ℕ := 256
def provisioningRetainedBytes : ℕ := 524288
def provisioningStructuralAllowance : ℕ := 8192
def maxPendingScope : ℕ := 8
def maxTerminalScope : ℕ := 32
def terminalTtl : ℕ := fromSecs 600
def idleScopeTtl : ℕ := fromSecs 1800
def outcomeSizeLimit : ℕ := 4096

/-! ### Mutations -/

/-- `PartialEq` of a typed value: floats compare as numbers. -/
def sameValue : Value → Value → Bool
  | .float a, .float b => a == b
  | a, b => decide (a = b)

instance : BEq ManualOutputCommand where
  beq
    | .write value ttl, .write value' ttl' => sameValue value value' && ttl == ttl'
    | a, b => decide (a = b)

inductive PropertyMutationValue
  | integer (value : ℤ)
  | text (value : String)
  deriving BEq, Repr

inductive EmulatorPublication
  | good (value : F64)
  | unavailable
  deriving BEq, Repr

/-- What the store reads of a provisioning candidate: its equality and its canonical bytes. -/
class Candidate (C : Type) extends BEq C where
  canonical : C → List UInt8

/-- Complete typed mutation identity; connection and message numbers are not part of it. -/
inductive Mutation (C : Type)
  | manualOutput (instrument parameter expectedInstance expectedEpoch : ℕ) (action : ManualOutputCommand)
  | configureReferenceFixed (reference expectedRevision : ℕ) (value : F64)
  | configureReferenceRamp (reference expectedRevision : ℕ) (target rate : F64)
  | retuneRamp (reference expectedRevision : ℕ) (target rate : F64)
  | configurePid (controller expectedRevision : ℕ) (kp ki kd outputMin outputMax : F64)
  | configureController (controller expectedRevision : ℕ) (kp ki kd outputMin outputMax : F64)
      (emaTimeConstantNs emaWarmupSamples maxInputAgeNs maxTickGapNs leaseLifetimeNs proposalTtlNs : ℕ)
  | start (controller : ℕ)
  | pause (controller : ℕ)
  | resume (controller : ℕ)
  | resetFailed (controller : ℕ)
  | recordingStart (label : String)
  | recordingStop (bootId : String) (runNo : ℕ)
  | experimentAnnotate (name dataJson : String)
  | historyReadMeasurements (databaseId bootId : String)
      (runNo instrument parameter fromNs toNs maxRecords : ℕ) (cursor : Option String)
  | historyReadRuns (databaseId : String) (maxRecords : ℕ) (cursor : Option String)
  | reloadConfiguration
  | stageConfiguration
  | stageSimpleDeviceCandidate (expectedRevision : ℕ) (candidate : C)
  | applyConfiguration (candidateId expectedRevision : ℕ)
  | configureProperty (targetKind : String) (targetId : ℕ) (property : String)
      (value : PropertyMutationValue) (expectedRevision : ℕ)
  | publishEmulatorMeasurement (instrument parameter expectedGeneration : ℕ)
      (publication : EmulatorPublication)
  | restartVirtualModels
  | reconnectResource (resource expectedBindingGeneration : ℕ)
  | shutdown
  deriving BEq, Repr

/-- `if *value == 0.0 { *value = 0.0 }`. -/
def normalZero (value : F64) : F64 := if value == F64.zero then F64.zero else value

def Mutation.normalized {C : Type} : Mutation C → Mutation C
  | .retuneRamp reference expectedRevision target rate =>
    .retuneRamp reference expectedRevision (normalZero target) (normalZero rate)
  | .configurePid controller expectedRevision kp ki kd outputMin outputMax =>
    .configurePid controller expectedRevision (normalZero kp) (normalZero ki) (normalZero kd)
      (normalZero outputMin) (normalZero outputMax)
  | payload => payload

def provisioningCharge {C : Type} [Candidate C] : Mutation C → ℕ
  | .stageSimpleDeviceCandidate _ candidate =>
    ((Candidate.canonical candidate).length + 63) / 64 * 64 + provisioningStructuralAllowance
  | _ => 0

/-! ### Answers -/

inductive OperationState
  | accepted
  | completed (result : String)
  | failed (code : String)
  | failedWithResult (code detail : String)
  deriving DecidableEq, Repr

def OperationState.terminal : OperationState → Bool
  | .accepted => false
  | _ => true

/-- Dedup and admission decision; only `accepted` permits a first execution. -/
inductive Admission
  | accepted
  | known (state : OperationState)
  | conflict
  | unknown
  | gap
  | busy
  | scopeUnknown
  deriving DecidableEq, Repr

inductive SessionError
  | invalidBoot | scopeCapacity | scopeUnknown | instanceChanged | scopeInUse | counterExhausted
  | invalidOutcome
  deriving DecidableEq, Repr

structure OpenScope where
  scope : String
  nextSeq : ℕ
  deriving DecidableEq, Repr

/-! ### The store -/

structure Record (C : Type) where
  seq : ℕ
  payload : Mutation C
  state : OperationState
  terminalAt : Option ℕ
  provisioningCharge : ℕ

structure Scope (C : Type) where
  attached : Option ℕ
  highWater : ℕ
  lastActive : ℕ
  records : List (Record C)

structure SessionStore (C : Type) where
  bootId : String
  nextScope : ℕ
  scopes : OrderedMap String (Scope C)
  retainedProvisioningBytes : ℕ

def Record.pending {C : Type} (record : Record C) : Bool := !record.state.terminal

def Record.isTerminal {C : Type} (record : Record C) : Bool := record.state.terminal

def Scope.pendingCount {C : Type} (scope : Scope C) : ℕ := scope.records.countP Record.pending

def Scope.terminalCount {C : Type} (scope : Scope C) : ℕ := scope.records.countP Record.isTerminal

def Scope.charge {C : Type} (scope : Scope C) : ℕ := (scope.records.map Record.provisioningCharge).sum

namespace SessionStore

variable {C : Type} (s : SessionStore C)

/-- A 32-character lowercase hexadecimal boot identity. -/
def new (bootId : String) : Except SessionError (SessionStore C) :=
  if bootId.utf8ByteSize ≠ 32 ||
      !bootId.toList.all (fun b => b.isDigit || (decide ('a' ≤ b) && decide (b ≤ 'f'))) then
    .error .invalidBoot
  else .ok ⟨bootId, 1, OrderedMap.empty, 0⟩

def pendingCount : ℕ := s.scopes.total Scope.pendingCount

def terminalCount : ℕ := s.scopes.total Scope.terminalCount

def recountProvisioningCredit : SessionStore C :=
  { s with retainedProvisioningBytes := s.scopes.total Scope.charge }

/-- `text.split_once(':')`. -/
def splitOnce (text : String) : Option (String × String) :=
  match text.toList.span (· ≠ ':') with
  | (before, _ :: after) => some (String.ofList before, String.ofList after)
  | (_, []) => none

/-! ### Expiry -/

def unexpired (now : ℕ) (record : Record C) : Bool :=
  match record.terminalAt with
  | none => true
  | some t => decide (now < t) || decide (now - t < terminalTtl)

def retained (now : ℕ) (scope : Scope C) : Bool :=
  scope.attached.isSome || scope.records.any Record.pending || decide (now < scope.lastActive) ||
    decide (now - scope.lastActive < idleScopeTtl)

/-- Drop old terminal outcomes, then detached idle scopes, at their exact deadlines. -/
def expire (now : ℕ) : SessionStore C :=
  recountProvisioningCredit
    { s with
      scopes := (s.scopes.mapValues fun scope =>
        { scope with records := scope.records.filter (unexpired now) }).retain fun _ => retained now }

/-! ### Opening and detaching -/

def scopeName (bootId : String) (counter : ℕ) : String := bootId ++ ":" ++ counter.repr

def resume (old : String) (connection now : ℕ) : Except SessionError OpenScope × SessionStore C :=
  match splitOnce old with
  | none => (.error .scopeUnknown, s)
  | some (boot, _) =>
    if boot ≠ s.bootId then (.error .instanceChanged, s)
    else
      match s.scopes.get old with
      | none => (.error .scopeUnknown, s)
      | some scope =>
        if scope.attached.any (· ≠ connection) then (.error .scopeInUse, s)
        else
          let s := { s with
            scopes := s.scopes.insert old { scope with attached := some connection, lastActive := now } }
          match checkedAdd scope.highWater 1 with
          | none => (.error .counterExhausted, s)
          | some nextSeq => (.ok ⟨old, nextSeq⟩, s)

def issue (connection now : ℕ) : Except SessionError OpenScope × SessionStore C :=
  if maxScopes ≤ s.scopes.size then (.error .scopeCapacity, s)
  else
    match checkedAdd s.nextScope 1 with
    | none => (.error .counterExhausted, s)
    | some next =>
      let scopeId := scopeName s.bootId s.nextScope
      (.ok ⟨scopeId, 1⟩,
        { s with nextScope := next, scopes := s.scopes.insert scopeId ⟨some connection, 0, now, []⟩ })

/-- `SessionStore::open`: resume a named scope or issue a new one. -/
def openScope (old : Option String) (connection now : ℕ) :
    Except SessionError OpenScope × SessionStore C :=
  match old with
  | some old => (s.expire now).resume old connection now
  | none => (s.expire now).issue connection now

/-- Detach only the exact old connection; accepted work and outcomes remain. -/
def detach (connection now : ℕ) : SessionStore C :=
  { s with
    scopes := s.scopes.mapValues fun scope =>
      if scope.attached = some connection then { scope with attached := none, lastActive := now } else scope }

/-! ### Admission -/

variable [Candidate C]

/-- `self.retained_provisioning_bytes.checked_add(charge)` is absent or over the credit. -/
def overCredit (charge : ℕ) : Bool :=
  (checkedAdd s.retainedProvisioningBytes charge).all fun retained =>
    decide (provisioningRetainedBytes < retained)

/-- The answer a live scope gives before the gate is asked, if any; `payload` is normalized. -/
def refusalIn (scope : Scope C) (seq : ℕ) (payload : Mutation C) : Option Admission :=
  match scope.records.find? (·.seq == seq) with
  | some old => if old.payload == payload then some (.known old.state) else some .conflict
  | none =>
    if seq ≤ scope.highWater then some .unknown
    else if checkedAdd scope.highWater 1 ≠ some seq then some .gap
    else if maxPendingScope ≤ scope.pendingCount ∨ maxPending ≤ s.pendingCount then some .busy
    else if s.overCredit (provisioningCharge payload) then some .busy
    else none

def refusal (scopeId : String) (seq : ℕ) (payload : Mutation C) : Option Admission :=
  match s.scopes.get scopeId with
  | none => some .scopeUnknown
  | some scope => s.refusalIn scope seq payload

/-- The scope a new number is reserved in. -/
def reserved (scope : Scope C) (seq : ℕ) (payload : Mutation C) (now : ℕ) : Scope C :=
  { scope with
    highWater := seq
    lastActive := now
    records := scope.records ++ [⟨seq, payload, .accepted, none, provisioningCharge payload⟩] }

def reserve (scopeId : String) (seq : ℕ) (payload : Mutation C) (now : ℕ) : SessionStore C :=
  match s.scopes.get scopeId with
  | none => s
  | some scope =>
    { s with
      scopes := s.scopes.insert scopeId (reserved scope seq payload now)
      retainedProvisioningBytes := s.retainedProvisioningBytes + provisioningCharge payload }

/-- The gate is an action of the caller's own, run only for an otherwise admissible number. -/
def admitWithGate {m : Type → Type} [Monad m] (scopeId : String) (seq : ℕ) (payload : Mutation C)
    (now : ℕ) (gate : m Bool) : m (Admission × SessionStore C) :=
  let s := s.expire now
  let payload := payload.normalized
  match s.refusal scopeId seq payload with
  | some answer => pure (answer, s)
  | none => do
    if ← gate then pure (.accepted, s.reserve scopeId seq payload now)
    else pure (.busy, s)

def admitMutation (scopeId : String) (seq : ℕ) (payload : Mutation C) (now : ℕ) : Admission × SessionStore C :=
  Id.run (s.admitWithGate scopeId seq payload now (pure true))

/-! ### Completion -/

/-- Remove first terminal records while more than the scope's bound are retained. -/
def trimTerminal : ℕ → List (Record C) → List (Record C)
  | 0, records => records
  | fuel + 1, records =>
    if maxTerminalScope < records.countP Record.isTerminal then
      trimTerminal fuel (records.eraseP Record.isTerminal)
    else records

/-- The terminal records of the store with their scope, in iteration order. -/
def outcomes : List (ℕ × String × ℕ) :=
  s.scopes.entries.flatMap fun (scopeId, scope) =>
    scope.records.filterMap fun record => record.terminalAt.map fun t => (t, scopeId, record.seq)

/-- `min_by_key`: the first of the earliest. -/
def earliest : List (ℕ × String × ℕ) → Option (ℕ × String × ℕ)
  | [] => none
  | outcome :: rest =>
    match earliest rest with
    | none => some outcome
    | some best => if outcome.1 ≤ best.1 then some outcome else some best

def evict (scopeId : String) (seq : ℕ) : SessionStore C :=
  match s.scopes.get scopeId with
  | none => s
  | some scope =>
    { s with
      scopes := s.scopes.insert scopeId { scope with records := scope.records.eraseP (·.seq == seq) } }

/-- Remove oldest outcomes while more than the store's bound are retained. -/
def evictTerminal : ℕ → SessionStore C → SessionStore C
  | 0, s => s
  | fuel + 1, s =>
    if maxTerminal < s.terminalCount then
      match earliest s.outcomes with
      | none => s
      | some (_, scopeId, seq) => evictTerminal fuel (s.evict scopeId seq)
    else s

/-- Both loops stop once as many records are gone as there were terminal ones. -/
def enforceTerminalBounds : SessionStore C :=
  let s := { s with
    scopes := s.scopes.mapValues fun scope =>
      { scope with records := trimTerminal scope.terminalCount scope.records } }
  evictTerminal s.terminalCount s

/-- Settle the first record of a number, if it is still pending. -/
def settleFirst (seq : ℕ) (state : OperationState) (now : ℕ) : List (Record C) → Option (List (Record C))
  | [] => none
  | record :: rest =>
    if record.seq == seq then
      if record.state.terminal then none
      else some ({ record with state := state, terminalAt := some now } :: rest)
    else (settleFirst seq state now rest).map (record :: ·)

def outcomeSize : OperationState → Option ℕ
  | .completed text | .failed text => some text.utf8ByteSize
  | .failedWithResult code detail => some (code.utf8ByteSize + detail.utf8ByteSize)
  | .accepted => none

/-- Store a terminal outcome before any delivery is attempted. -/
def complete (scopeId : String) (seq : ℕ) (state : OperationState) (now : ℕ) :
    Except SessionError Unit × SessionStore C :=
  match outcomeSize state with
  | none => (.error .invalidOutcome, s)
  | some size =>
    if outcomeSizeLimit < size then (.error .invalidOutcome, s)
    else
      match s.scopes.get scopeId with
      | none => (.error .scopeUnknown, s)
      | some scope =>
        match settleFirst seq state now scope.records with
        | none => (.error .invalidOutcome, s)
        | some records =>
          (.ok (), recountProvisioningCredit (enforceTerminalBounds
            { s with scopes := s.scopes.insert scopeId { scope with records } }))

/-- The retained known state of a number, or unknown. -/
def status (scopeId : String) (seq : ℕ) : Admission :=
  match s.scopes.get scopeId with
  | none => .scopeUnknown
  | some scope =>
    match scope.records.find? (·.seq == seq) with
    | some record => .known record.state
    | none => .unknown

end SessionStore

end LabRuntime.Sessions
