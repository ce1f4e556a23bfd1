import LabRuntime.Lib.OrderedMap
import Mathlib.Data.Finset.Basic

/-! Connection identities and the one admission pool, the exchange state of a connection on the
reactor's side, and the request queues and close lifecycle on the owner's side. -/

namespace LabRuntime.Server

def maxClients : ℕ := 8
def mailboxCapacity : ℕ := 64
def clientIn : ℕ := 8
def clientOut : ℕ := 8
def clientEvents : ℕ := 16

/-- What the delivery code reads of an encoded message. -/
structure Message where
  msgId : Option String := none
  type : Option String := none
  state : Option String := none
  code : Option String := none
  deriving DecidableEq, Repr

structure WireRequest where
  msgId : String
  op : String
  deriving DecidableEq, Repr

def rejection (msgId : Option String) (code : String) : Message :=
  { msgId, type := some "error", code := some code }

inductive AdmissionError
  | capacity | exhausted
  deriving DecidableEq, Repr

/-! ### Connection identities -/

structure ConnectionCoordinator where
  nextId : ℕ := 1
  active : OrderedMap ℕ Unit := .empty
  pendingDetach : List ℕ := []

namespace ConnectionCoordinator

def capacityFull (c : ConnectionCoordinator) : Bool := c.active.size + c.pendingDetach.length ≥ maxClients

def admitConnection (c : ConnectionCoordinator) : Except AdmissionError (ℕ × ConnectionCoordinator) :=
  if c.capacityFull then .error .capacity
  else if c.nextId + 1 ≥ 2 ^ 64 then .error .exhausted
  else .ok (c.nextId, { c with nextId := c.nextId + 1, active := c.active.insert c.nextId () })

def beginDetach (c : ConnectionCoordinator) (id : ℕ) : Bool × ConnectionCoordinator :=
  if c.active.contains id then
    (true, { c with active := c.active.remove id, pendingDetach := c.pendingDetach ++ [id] })
  else (false, c)

def detachDelivered (c : ConnectionCoordinator) : ConnectionCoordinator :=
  { c with pendingDetach := c.pendingDetach.tail }

end ConnectionCoordinator

/-! ### One connection, on the reactor's side -/

structure ClientDelivery where
  repliedHello : Bool := false
  replies : List Message := []
  events : List Message := []
  lastReply : Bool := false
  pending : ℕ := 0
  pendingIds : Finset String := ∅
  rejection : Option Message := none
  closing : Bool := false

namespace ClientDelivery

def pendingFull (d : ClientDelivery) : Bool := d.pending ≥ clientIn

def requestIsInFlight (d : ClientDelivery) (msgId : String) : Bool := msgId ∈ d.pendingIds

def requestAdmitted (d : ClientDelivery) (msgId : String) : ClientDelivery :=
  { d with pendingIds := insert msgId d.pendingIds, pending := d.pending + 1 }

def replyQueued (d : ClientDelivery) (writing : Option Bool) : ℕ :=
  d.replies.length + if writing = some true then 1 else 0

def eventQueued (d : ClientDelivery) (writing : Option Bool) : ℕ :=
  d.events.length + if writing = some false then 1 else 0

def rejectAndClose (d : ClientDelivery) (message : Message) : ClientDelivery :=
  { d with rejection := some message, closing := true }

def stageRejection (d : ClientDelivery) (writing : Option Bool) : ClientDelivery :=
  if d.pendingIds = ∅ ∧ d.replyQueued writing < clientOut then
    match d.rejection with
    | some message => { d with rejection := none, replies := d.replies ++ [message] }
    | none => d
  else d

/-- The request a reply answers for good. -/
def answered (message : Message) : Option String :=
  if message.type = some "operation" ∧ message.state = some "accepted" then none else message.msgId

/-- `none` where the reply queue is full. -/
def pushReply (d : ClientDelivery) (message : Message) (consumed hello : Bool) (writing : Option Bool) :
    Option ClientDelivery :=
  if d.replyQueued writing ≥ clientOut then none
  else some
    { d with
      pendingIds := match answered message with
        | some msgId => d.pendingIds.erase msgId
        | none => d.pendingIds
      repliedHello := d.repliedHello || hello
      replies := d.replies ++ [message]
      pending := if consumed then d.pending - 1 else d.pending }

/-- `none` where the event queue is full. -/
def pushEvent (d : ClientDelivery) (message : Message) (writing : Option Bool) : Option ClientDelivery :=
  if d.eventQueued writing ≥ clientEvents then none else some { d with events := d.events ++ [message] }

/-- The message written next, and whether it is a reply. -/
def nextMessage (d : ClientDelivery) : Option (Message × Bool) × ClientDelivery :=
  match d.lastReply, d.replies, d.events with
  | true, _, event :: events => (some (event, false), { d with events })
  | _, reply :: replies, _ => (some (reply, true), { d with replies })
  | _, [], event :: events => (some (event, false), { d with events })
  | _, [], [] => (none, d)

def messageWritten (d : ClientDelivery) (reply : Bool) : ClientDelivery := { d with lastReply := reply }

def close (d : ClientDelivery) : ClientDelivery := { d with closing := true }

end ClientDelivery

/-! ### All connections, on the owner's side -/

structure OwnerDelivery where
  queued : OrderedMap ℕ (List WireRequest) := .empty
  closing : OrderedMap ℕ Unit := .empty
  closeSent : OrderedMap ℕ Unit := .empty
  rotation : ℕ := 0

/-- The head of each listed queue that has one, and the queues without them. -/
def popEach (queued : OrderedMap ℕ (List WireRequest)) :
    List ℕ → List (ℕ × WireRequest) × OrderedMap ℕ (List WireRequest)
  | [] => ([], queued)
  | id :: ids =>
    match queued.get id with
    | some (request :: rest) =>
      let popped := popEach (queued.insert id rest) ids
      ((id, request) :: popped.1, popped.2)
    | _ => popEach queued ids

namespace OwnerDelivery

def admitRequest (o : OwnerDelivery) (id : ℕ) (request : WireRequest) : OwnerDelivery :=
  if o.closing.contains id then o
  else
    let queue := (o.queued.get id).getD []
    { o with queued := o.queued.insert id (if queue.length < clientIn then queue ++ [request] else queue) }

def nextRequests (o : OwnerDelivery) : List (ℕ × WireRequest) × OwnerDelivery :=
  let ids := o.queued.keys
  if ids = [] then ([], o)
  else
    let turn := (List.range (min ids.length 4)).filterMap fun offset => ids[(o.rotation + offset) % ids.length]?
    let popped := popEach o.queued turn
    (popped.1, { o with queued := popped.2, rotation := (o.rotation + 1) % ids.length })

def connectionIds (o : OwnerDelivery) : List ℕ := o.queued.keys

/-- Whether the Application must be detached now. -/
def beginClose (o : OwnerDelivery) (id : ℕ) : Bool × OwnerDelivery :=
  (!o.closing.contains id, { o with queued := o.queued.remove id, closing := o.closing.insert id () })

/-- Whether the Application must be detached now. -/
def networkDetached (o : OwnerDelivery) (id : ℕ) : Bool × OwnerDelivery :=
  (!o.closing.contains id,
    { o with
      queued := o.queued.remove id
      closeSent := o.closeSent.remove id
      closing := o.closing.remove id })

def unsentCloses (o : OwnerDelivery) : List ℕ := o.closing.keys.filter fun id => !o.closeSent.contains id

def closeWasSent (o : OwnerDelivery) (id : ℕ) : OwnerDelivery :=
  { o with queued := o.queued.remove id, closeSent := o.closeSent.insert id () }

end OwnerDelivery

end LabRuntime.Server
