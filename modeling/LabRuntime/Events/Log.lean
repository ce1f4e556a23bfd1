import Mathlib.Data.List.Sort
import Mathlib.Data.String.Basic
import LabRuntime.Lib.OrderedMap
import LabRuntime.Recording
import LabRuntime.Descriptor

/-! The bounded event log: current public facts and the last semantic publications. Sequence is
publication order. What a record weighs on the wire and what a runtime answers are parameters. -/

namespace LabRuntime.Events

abbrev ComponentId := ℕ

def eventRingLimit : ℕ := 1024
def eventSizeLimit : ℕ := 4096

inductive EventError
  | gap | future | exhausted | oversized | reservation
  deriving DecidableEq, Repr

/-! ### Targets and records -/

inductive Target
  | signal (id : SignalId)
  | controller (id : ControllerId)
  | reference (id : ReferenceId)
  | output (id : ActuatorId)
  | component (id : ComponentId)
  deriving DecidableEq, Repr

/-- The JSON object that says what a record is about. -/
inductive TargetJson
  | parameter (instrument parameter : String)
  | id (id : Option String)
  | scope (scope : String)
  deriving DecidableEq, Repr

namespace Target

def key : Target → String
  | .signal s => "signal:" ++ (s.instrument.repr ++ ":" ++ s.parameter.repr)
  | .controller id => "controller:" ++ id.repr
  | .reference id => "reference:" ++ id.repr
  | .output a => "output:" ++ (a.instrument.repr ++ ":" ++ a.parameter.repr)
  | .component id => "component:" ++ id.repr

def kind : Target → String
  | .signal _ => "signal"
  | .controller _ => "controller"
  | .reference _ => "reference"
  | .output _ => "output"
  | .component _ => "component"

def id : Target → TargetJson
  | .signal s => .parameter s.instrument.repr s.parameter.repr
  | .controller id => .id (some id.repr)
  | .reference id => .id (some id.repr)
  | .output a => .parameter a.instrument.repr a.parameter.repr
  | .component id => .id (some id.repr)

end Target

/-- One published record, besides its fixed version and type. -/
structure EventRecord (D : Type) where
  bootId : String
  seq : String
  publishedAt : String
  kind : String
  target : TargetJson
  data : D
  requestId : Option (String × String)

/-- JSON data of records: its equality, its host envelope and the encoder's length, if it encodes. -/
class EventData (D : Type) extends BEq D where
  hostStatus : String → D → D
  encodedLength : EventRecord D → Option ℕ

/-- What the log reads of a runtime. -/
structure RuntimeView (D : Type) where
  discover : Option (List InstrumentDescriptor)
  query : Target → Option D
  preparedSimpleDescriptor : InstrumentId → Option InstrumentDescriptor
  preparedSimpleSignal : SignalId → Option D
  preparedSimpleOutput : ActuatorId → Option D
  preparedSimpleController : ControllerId → Option D

structure PreparedEvent (D : Type) where
  target : Target
  data : D
  recordData : D

structure PublicationReservation where
  id : ℕ
  capacity : ℕ
  deriving DecidableEq, Repr

structure PreparedEventPublication (D : Type) where
  reservationId : ℕ
  events : List (PreparedEvent D)

structure EventLog (D : Type) where
  bootId : String
  sequence : ℕ
  targets : List Target
  facts : OrderedMap String D
  ring : List (EventRecord D)
  nextPublicationReservation : ℕ
  publicationReservation : Option PublicationReservation

structure ProjectionRecord (D : Type) where
  kind : String
  target : TargetJson
  data : D

def eventRecord {D : Type} (bootId : String) (sequence publishedAt : ℕ) (kind : String) (target : TargetJson)
    (data : D) (cause : Option (String × ℕ)) : EventRecord D :=
  ⟨bootId, sequence.repr, publishedAt.repr, kind, target, data, cause.map fun (scope, seq) => (scope, seq.repr)⟩

/-- `str::parse::<u64>`. -/
def parseU64 (text : String) : Option ℕ :=
  let digits := match text.toList with
    | '+' :: rest => rest
    | all => all
  if digits.isEmpty || !digits.all Char.isDigit then none
  else if Nat.ofDigitChars 10 digits 0 ≤ u64Max then some (Nat.ofDigitChars 10 digits 0) else none

/-- `targets.sort_by_key(Target::key)`. -/
def sortByKey (targets : List Target) : List Target := targets.insertionSort fun a b => a.key ≤ b.key

/-- The signals and actuators a runtime's discovery lists. -/
def discovered (instruments : List InstrumentDescriptor) : List Target :=
  instruments.flatMap fun instrument => instrument.parameters.flatMap fun p =>
    (p.signal.map Target.signal).toList ++
      (if p.role = .actuator then [.output ⟨instrument.id, p.id⟩] else [])

namespace EventLog

variable {D : Type}

/-! ### Construction and tracking -/

def new (runtime : RuntimeView D) (controllers : List ControllerId) (references : List ReferenceId)
    (bootId : String) : EventLog D :=
  let targets := sortByKey ((runtime.discover.elim [] discovered) ++ controllers.map .controller ++
    references.map .reference)
  { bootId
    sequence := 0
    targets
    facts := OrderedMap.empty.extend (targets.filterMap fun t => (runtime.query t).map fun v => (t.key, v))
    ring := []
    nextPublicationReservation := 1
    publicationReservation := none }

variable (log : EventLog D)

def setBootId (bootId : String) : EventLog D :=
  { log with bootId, sequence := 0, ring := [], nextPublicationReservation := 1 }

/-- Track a target that is not tracked yet. -/
def track (target : Target) : EventLog D :=
  if target ∈ log.targets then log else { log with targets := sortByKey (log.targets ++ [target]) }

def trackComponent (id : ComponentId) : EventLog D := log.track (.component id)
def trackController (id : ControllerId) : EventLog D := log.track (.controller id)
def trackReference (id : ReferenceId) : EventLog D := log.track (.reference id)

def trackNewSignals (runtime : RuntimeView D) : EventLog D :=
  let found := runtime.discover.elim [] discovered
  { log with
    targets := sortByKey (found.foldl (fun targets t => if t ∈ targets then targets else targets ++ [t])
      log.targets) }

/-! ### Cursors and projections -/

def latestCursor : ℕ := log.sequence

/-- Earliest cursor from which complete replay remains possible. -/
def oldestCursor : ℕ :=
  (log.ring.head?.bind fun v => (parseU64 v.seq).bind fun seq =>
    if 1 ≤ seq then some (seq - 1) else none).getD log.sequence

def projectionRecords : List (ProjectionRecord D) :=
  log.targets.filterMap fun t => (log.facts.get t.key).map fun data => ⟨t.kind, t.id, data⟩

/-- Up to `limit` retained events after a cursor; no silent jump on a gap. -/
def scanAfter (cursor limit : ℕ) : Except EventError (List (EventRecord D)) :=
  if log.sequence < cursor then .error .future
  else if cursor < log.oldestCursor then .error .gap
  else .ok ((log.ring.filter fun v => (parseU64 v.seq).any (cursor < ·)).take (min limit 32))

/-! ### Publication -/

/-- The ring with a record at its back; a full ring loses its front. -/
def pushRing (ring : List (EventRecord D)) (record : EventRecord D) : List (EventRecord D) :=
  (if ring.length = eventRingLimit then ring.tail else ring) ++ [record]

def publish (sequence : ℕ) (record : EventRecord D) : EventLog D :=
  { log with sequence, ring := pushRing log.ring record }

variable [EventData D]

/-- Append one record; the record is returned beside the log that holds it. -/
def append (publishedAt : ℕ) (kind : String) (target : TargetJson) (data : D)
    (cause : Option (String × ℕ)) : Except EventError (EventLog D × EventRecord D) :=
  match checkedAdd log.sequence 1 with
  | none => .error .exhausted
  | some sequence =>
    if log.publicationReservation.any fun r => (checkedAdd sequence r.capacity).isNone then
      .error .exhausted
    else
      let record := eventRecord log.bootId sequence publishedAt kind target data cause
      match EventData.encodedLength record with
      | none => .error .oversized
      | some length =>
        if eventSizeLimit < length then .error .oversized else .ok (log.publish sequence record, record)

/-- The body of `observe` over its targets, with the records it published. -/
def observeTargets (runtime : RuntimeView D) (publishedAt : ℕ) (cause : Option (String × ℕ)) :
    List Target → EventLog D → Except EventError Unit × EventLog D × List (EventRecord D)
  | [], log => (.ok (), log, [])
  | t :: ts, log =>
    match runtime.query t with
    | none => observeTargets runtime publishedAt cause ts log
    | some data =>
      if (log.facts.get t.key).any (· == data) then observeTargets runtime publishedAt cause ts log
      else
        match log.append publishedAt t.kind t.id data cause with
        | .error error => (.error error, log, [])
        | .ok (log, record) =>
          let (result, log, published) := observeTargets runtime publishedAt cause ts
            { log with facts := log.facts.insert t.key data }
          (result, log, record :: published)

def observe (runtime : RuntimeView D) (publishedAt : ℕ) (cause : Option (String × ℕ)) :
    Except EventError Unit × EventLog D × List (EventRecord D) :=
  let log := log.trackNewSignals runtime
  observeTargets runtime publishedAt cause log.targets log

/-- A call that appends one record and changes nothing else. -/
def announce (publishedAt : ℕ) (kind : String) (target : TargetJson) (data : D)
    (cause : Option (String × ℕ)) : Except EventError Unit × EventLog D × List (EventRecord D) :=
  match log.append publishedAt kind target data cause with
  | .error error => (.error error, log, [])
  | .ok (log, record) => (.ok (), log, [record])

def operationTerminal (publishedAt : ℕ) (scope : String) (seq : ℕ) (data : D) :=
  log.announce publishedAt "operation" (.scope scope) data (some (scope, seq))

def hostState (publishedAt : ℕ) (state : String) (data : D) :=
  log.announce publishedAt "host" (.id (some "runtime")) (EventData.hostStatus state data) none

def recorderState (publishedAt : ℕ) (archiveId : Option String) (data : D) :=
  log.announce publishedAt "recorder" (.id archiveId) data none

def resourceState (publishedAt : ℕ) (id : ResourceId) (data : D) :=
  log.announce publishedAt "resource" (.id (some id.repr)) data none

def configurationState (publishedAt : ℕ) (data : D) :=
  log.announce publishedAt "configuration" (.id (some "runtime")) data none

/-! ### Prepared publication -/

def validateRecordBound (bootId : String) (target : Target) (data : D) : Except EventError Unit :=
  match EventData.encodedLength (eventRecord bootId u64Max durationMax target.kind target.id data none) with
  | none => .error .oversized
  | some length => if eventSizeLimit < length then .error .oversized else .ok ()

def preparedParameter (runtime : RuntimeView D) (instrument : InstrumentId) (p : ParameterDescriptor) :
    Except EventError (List (PreparedEvent D)) := do
  let signal ← match p.signal with
    | none => .ok []
    | some signal =>
      match runtime.preparedSimpleSignal signal with
      | none => .error .reservation
      | some data => .ok [⟨.signal signal, data, data⟩]
  let output ← if p.role = .actuator then
      match runtime.preparedSimpleOutput ⟨instrument, p.id⟩ with
      | none => .error .reservation
      | some data => .ok [⟨.output ⟨instrument, p.id⟩, data, data⟩]
    else .ok []
  return signal ++ output

def preparedInstrument (runtime : RuntimeView D) (instrument : InstrumentId) :
    Except EventError (List (PreparedEvent D)) :=
  match runtime.preparedSimpleDescriptor instrument with
  | none => .error .reservation
  | some descriptor => List.flatten <$> descriptor.parameters.mapM (preparedParameter runtime instrument)

def preparedController (runtime : RuntimeView D) (controller : ControllerId) :
    Except EventError (PreparedEvent D) :=
  match runtime.preparedSimpleController controller with
  | none => .error .reservation
  | some data => .ok ⟨.controller controller, data, data⟩

/-- The checks on a sorted batch: no key twice, none tracked, each within its bound. -/
def checkPrepared (events : List (PreparedEvent D)) : Except EventError Unit := do
  if (events.zip events.tail).any fun (a, b) => a.target.key = b.target.key then throw .reservation
  for event in events do
    if log.targets.any fun t => t.key = event.target.key then throw .reservation
    validateRecordBound log.bootId event.target event.data

def preparedEvents (runtime : RuntimeView D) (instruments : List InstrumentId)
    (controllers : List ControllerId) : Except EventError (List (PreparedEvent D)) := do
  let devices ← instruments.mapM (preparedInstrument runtime)
  let controlled ← controllers.mapM (preparedController runtime)
  let events := (devices.flatten ++ controlled).insertionSort fun a b => a.target.key ≤ b.target.key
  log.checkPrepared events
  return events

def prepareSimpleDevicePublication (runtime : RuntimeView D) (instruments : List InstrumentId)
    (controllers : List ControllerId) :
    Except EventError (PreparedEventPublication D) × EventLog D :=
  if log.publicationReservation.isSome then (.error .reservation, log)
  else
    match log.preparedEvents runtime instruments controllers with
    | .error error => (.error error, log)
    | .ok events =>
      if (checkedAdd log.sequence events.length).isNone then (.error .exhausted, log)
      else
        match checkedAdd log.nextPublicationReservation 1 with
        | none => (.error .exhausted, log)
        | some next =>
          (.ok ⟨log.nextPublicationReservation, events⟩,
            { log with
              nextPublicationReservation := next
              publicationReservation := some ⟨log.nextPublicationReservation, events.length⟩ })

omit [EventData D] in
/-- Release the held capacity; nothing when no reservation is held, where the source panics. -/
def cancelSimpleDevicePublication : Option (EventLog D) :=
  if log.publicationReservation.isSome then some { log with publicationReservation := none } else none

omit [EventData D] in
/-- Publish prepared events in turn; nothing when the sequence cannot advance, where the source panics. -/
def commitEvents (publishedAt : ℕ) :
    List (PreparedEvent D) → EventLog D → Option (EventLog D × List (EventRecord D))
  | [], log => some (log, [])
  | event :: events, log =>
    match checkedAdd log.sequence 1 with
    | none => none
    | some sequence =>
      let record := eventRecord log.bootId sequence publishedAt event.target.kind event.target.id
        event.recordData none
      let log := log.publish sequence record
      (commitEvents publishedAt events
        { log with
          targets := log.targets ++ [event.target]
          facts := log.facts.insert event.target.key event.data }).map fun (log, published) =>
        (log, record :: published)

omit [EventData D] in
def commitSimpleDevicePublication (publication : PreparedEventPublication D) (publishedAt : ℕ) :
    Option (EventLog D × List (EventRecord D)) :=
  if log.publicationReservation.isSome then
    (commitEvents publishedAt publication.events { log with publicationReservation := none }).map
      fun (log, published) => ({ log with targets := sortByKey log.targets }, published)
  else none

end EventLog

end LabRuntime.Events
