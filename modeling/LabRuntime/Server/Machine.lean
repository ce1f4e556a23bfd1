import LabRuntime.Server.Coordination
import LabRuntime.Lib.History
import Mathlib.Logic.Function.Basic

/-! The reactor and the Runtime owner over their two bounded mailboxes. A step of either side makes
at most one access to a mailbox, so a run of steps is an interleaving. Sockets, time and the
Application's answers are inputs of the steps. -/

namespace LabRuntime.Server

inductive Incoming
  | request (id : ℕ) (request : WireRequest)
  | detach (id : ℕ)
  deriving DecidableEq, Repr

inductive Outgoing
  | stopAccept
  | close (connection : ℕ)
  | reply (connection : ℕ) (message : Message) (consumed hello : Bool)
  | event (connection : ℕ) (message : Message)
  deriving DecidableEq, Repr

/-- A complete message of a client, as it decodes. -/
inductive Frame
  | request (request : WireRequest)
  | malformed (msgId : Option String) (code : String)
  deriving DecidableEq, Repr

/-! ### Peers -/

/-- A TCP or WebSocket peer. -/
structure Peer where
  websocket : Bool
  delivery : ClientDelivery := {}
  /-- whether the message being written is a reply -/
  writing : Option Bool := none
  /-- complete messages that have come and were not taken -/
  input : List Frame := []
  stagedRequest : Option WireRequest := none

namespace Peer

/-- A frame that is refused stays in a TCP buffer; a WebSocket has read it. -/
def reject (p : Peer) (rest : List Frame) (message : Message) : Peer :=
  { p with
    input := if p.websocket then rest else p.input
    delivery := p.delivery.rejectAndClose message }

/-- One round of `dispatch_buffered` or `read_messages`, and the request it sent to a mailbox that
has `room` or has none. -/
def dispatch (p : Peer) (room : Bool) : Peer × Option WireRequest :=
  match p.stagedRequest with
  | some request =>
    if room then
      ({ p with stagedRequest := none, delivery := p.delivery.requestAdmitted request.msgId }, some request)
    else (p, none)
  | none =>
    if p.delivery.pendingFull then (p, none)
    else
      match p.input with
      | [] => (p, none)
      | .malformed msgId code :: rest => (p.reject rest (rejection msgId code), none)
      | .request request :: rest =>
        if p.delivery.requestIsInFlight request.msgId then
          (p.reject rest (rejection (some request.msgId) "duplicate_msg_id"), none)
        else if room then
          ({ p with input := rest, delivery := p.delivery.requestAdmitted request.msgId }, some request)
        else if p.websocket then ({ p with input := rest, stagedRequest := some request }, none)
        else (p, none)

def startWrite (p : Peer) : Peer :=
  match p.writing with
  | some _ => p
  | none =>
    let (message, delivery) := p.delivery.nextMessage
    { p with delivery, writing := message.map (·.2) }

def finishWrite (p : Peer) : Peer :=
  match p.writing with
  | some reply => { p with delivery := p.delivery.messageWritten reply, writing := none }
  | none => p

end Peer

/-! ### The state -/

/-- Where the owner stands in a turn of `run`. -/
inductive OwnerAt
  | polling
  | late (replies : List (ℕ × Message))
  | receiving (left : ℕ)
  | handling (batch : List (ℕ × WireRequest))
  | replying (id : ℕ) (hello : Bool) (first : Bool) (replies : List Message) (batch : List (ℕ × WireRequest))
  | pumping (ids : List ℕ)
  | offering (id : ℕ) (events : List Message) (ids : List ℕ)
  | closing (ids : List ℕ)
  | stopping
  | finishing (replies : List (ℕ × Message))
  deriving DecidableEq, Repr

structure State where
  connections : ConnectionCoordinator := {}
  peers : OrderedMap ℕ Peer := .empty
  accepting : Bool := true
  /-- the reactor thread runs -/
  up : Bool := true
  incoming : List Incoming := []
  outgoing : List Outgoing := []
  delivery : OwnerDelivery := {}
  acceptStopSent : Bool := false
  «at» : OwnerAt := .polling
  /-- identities given out, in order -/
  accepted : List ℕ := []
  /-- what each client has sent -/
  sent : ℕ → List Frame := fun _ => []
  admitted : ℕ → List WireRequest := fun _ => []
  handled : ℕ → List WireRequest := fun _ => []
  /-- calls of `Application::detach`, in order -/
  detached : List ℕ := []
  /-- `Detach` messages the owner has taken, in order -/
  ended : List ℕ := []

namespace State

def append {α : Type} (f : ℕ → List α) (id : ℕ) (xs : List α) : ℕ → List α := Function.update f id (f id ++ xs)

/-! ### The reactor -/

def setPeer (s : State) (id : ℕ) (p : Peer) : State := { s with peers := s.peers.insert id p }

/-- Remove a peer and begin its detach. -/
def lose (s : State) (id : ℕ) : State :=
  { s with peers := s.peers.remove id, connections := (s.connections.beginDetach id).2 }

/-- The reactor thread returns: its sockets and its ends of the mailboxes are gone. -/
def fail (s : State) : State := { s with up := false, peers := .empty, outgoing := [] }

/-- The reactor is told to stop. -/
def halt (s : State) : State :=
  let incoming := s.connections.active.keys.foldl
    (fun incoming id => if incoming.length < mailboxCapacity then incoming ++ [.detach id] else incoming) s.incoming
  { s with incoming }.fail

def sendDetach (s : State) : State :=
  match s.connections.pendingDetach with
  | [] => s
  | id :: _ =>
    if s.incoming.length < mailboxCapacity then
      { s with incoming := s.incoming ++ [.detach id], connections := s.connections.detachDelivered }
    else s

def accept (s : State) (websocket : Bool) : State :=
  if s.accepting then
    match s.connections.admitConnection with
    | .ok (id, connections) =>
      { s with connections, peers := s.peers.insert id { websocket }, accepted := s.accepted ++ [id] }
    | .error .capacity => s
    | .error .exhausted => s.fail
  else s

/-- Deliver a reply or an event to its peer, which is dropped when its queue is full. -/
def push (s : State) (id : ℕ) (f : Peer → Option ClientDelivery) : State :=
  match s.peers.get id with
  | none => s
  | some p =>
    match f p with
    | some delivery => s.setPeer id { p with delivery }
    | none => s.lose id

def deliver (s : State) : Outgoing → State
  | .stopAccept => { s with accepting := false }
  | .reply id message consumed hello => s.push id fun p => p.delivery.pushReply message consumed hello p.writing
  | .event id message => s.push id fun p => p.delivery.pushEvent message p.writing
  | .close id => s.push id fun p => some p.delivery.close

def take (s : State) : State :=
  match s.outgoing with
  | [] => s
  | message :: outgoing => { s with outgoing }.deliver message

/-- A change of one peer that touches no mailbox. -/
def onPeer (s : State) (id : ℕ) (f : Peer → Peer) : State :=
  match s.peers.get id with
  | none => s
  | some p => s.setPeer id (f p)

def arrive (s : State) (id : ℕ) (frame : Frame) : State :=
  match s.peers.get id with
  | none => s
  | some p => { s.setPeer id { p with input := p.input ++ [frame] } with sent := append s.sent id [frame] }

def dispatch (s : State) (id : ℕ) : State :=
  match s.peers.get id with
  | none => s
  | some p =>
    if p.delivery.closing then s
    else
      let (p, request) := p.dispatch (s.incoming.length < mailboxCapacity)
      { s.setPeer id p with
        incoming := s.incoming ++ request.toList.map (.request id)
        admitted := append s.admitted id request.toList }

inductive ReactorStep
  | sendDetach
  | accept (websocket : Bool)
  | take
  | arrive (id : ℕ) (frame : Frame)
  | dispatch (id : ℕ)
  /-- a close frame, or a message the transport refuses -/
  | shut (id : ℕ)
  | stageRejection (id : ℕ)
  | startWrite (id : ℕ)
  | finishWrite (id : ℕ)
  /-- the peer's service fails: an I/O error, an end of input, a deadline, or a drained close -/
  | lose (id : ℕ)
  | halt
  | fail
  deriving DecidableEq, Repr

def react (s : State) (step : ReactorStep) : State :=
  if s.up then
    match step with
    | .sendDetach => s.sendDetach
    | .accept websocket => s.accept websocket
    | .take => s.take
    | .arrive id frame => s.arrive id frame
    | .dispatch id => s.dispatch id
    | .shut id => s.onPeer id fun p => { p with delivery := p.delivery.close }
    | .stageRejection id => s.onPeer id fun p => { p with delivery := p.delivery.stageRejection p.writing }
    | .startWrite id => s.onPeer id Peer.startWrite
    | .finishWrite id => s.onPeer id Peer.finishWrite
    | .lose id => if s.peers.contains id then s.lose id else s
    | .halt => s.halt
    | .fail => s.fail
  else s

/-! ### The owner -/

/-- What the Application and the service answer where the owner asks. -/
structure Answers where
  late : List (ℕ × Message) := []
  first : Message := {}
  rest : List Message := []
  events : List Message := []
  stopping : Bool := false
  finished : List (ℕ × Message) := []

/-- The outgoing mailbox takes no message. -/
def refuses (s : State) : Bool := !s.up || s.outgoing.length ≥ mailboxCapacity

def offer (s : State) (message : Outgoing) : State := { s with outgoing := s.outgoing ++ [message] }

/-- `delivery.begin_close(id)` and, when it is the first, `app.detach`. -/
def beginClose (s : State) (id : ℕ) : State :=
  let (first, delivery) := s.delivery.beginClose id
  { s with delivery, detached := if first then s.detached ++ [id] else s.detached }

/-- `delivery.network_detached(id)` and, when the owner had not closed it, `app.detach`. -/
def networkDetached (s : State) (id : ℕ) : State :=
  let (first, delivery) := s.delivery.networkDetached id
  { s with delivery, detached := if first then s.detached ++ [id] else s.detached, ended := s.ended ++ [id] }

def goto (s : State) («at» : OwnerAt) : State := { s with «at» }

/-- Close the batch of messages received and select the requests of this turn. -/
def select (s : State) : State :=
  let (batch, delivery) := s.delivery.nextRequests
  { s with delivery, «at» := .handling batch }

def receive (s : State) (left : ℕ) : State :=
  match s.incoming with
  | [] => s.select
  | .request id request :: incoming =>
    { s with incoming, delivery := s.delivery.admitRequest id request, «at» := .receiving left }
  | .detach id :: incoming => { s with incoming, «at» := .receiving left }.networkDetached id

def isGap (event : Message) : Bool := event.code = some "event_gap"

/-- One step of the owner: at most one access to a mailbox, or one call of the Application. -/
def own (s : State) (answers : Answers) : State :=
  match s.at with
  | .polling =>
    -- a late reply goes to the connection whose request it answers
    if answers.late.all fun reply => s.handled reply.1 ≠ [] then s.goto (.late answers.late) else s
  | .late [] => s.goto (.receiving 16)
  | .late ((id, message) :: replies) =>
    if s.refuses then (s.beginClose id).goto (.late replies)
    else (s.offer (.reply id message false false)).goto (.late replies)
  | .receiving 0 => s.select
  | .receiving (left + 1) => s.receive left
  | .handling [] => s.goto (.pumping s.delivery.connectionIds)
  | .handling ((id, request) :: batch) =>
    { s with handled := append s.handled id [request] }.goto
      (.replying id (request.op = "hello") true (answers.first :: answers.rest) batch)
  | .replying _ _ _ [] batch => s.goto (.handling batch)
  | .replying id hello first (message :: replies) batch =>
    if s.refuses then (s.beginClose id).goto (.handling batch)
    else
      (s.offer (.reply id message first (hello && message.type = some "result"))).goto
        (.replying id hello false replies batch)
  | .pumping [] => s.goto (.closing s.delivery.unsentCloses)
  | .pumping (id :: ids) => s.goto (.offering id answers.events ids)
  | .offering _ [] ids => s.goto (.pumping ids)
  | .offering id (event :: events) ids =>
    let s := if isGap event then s.beginClose id else s
    if s.refuses then (s.beginClose id).goto (.pumping ids)
    else (s.offer (.event id event)).goto (if isGap event then .pumping ids else .offering id events ids)
  | .closing [] => s.goto .stopping
  | .closing (id :: ids) =>
    if s.refuses then s.goto (.closing ids)
    else { s.offer (.close id) with delivery := s.delivery.closeWasSent id }.goto (.closing ids)
  | .stopping =>
    if answers.stopping && !s.acceptStopSent && !s.refuses then
      { s.offer .stopAccept with acceptStopSent := true }.goto (.finishing answers.finished)
    else s.goto (.finishing answers.finished)
  | .finishing [] => s.goto .polling
  | .finishing ((id, message) :: replies) =>
    -- a refused terminal reply is let go
    if s.refuses then s.goto (.finishing replies)
    else (s.offer (.reply id message false false)).goto (.finishing replies)

end State

inductive Step
  | reactor (step : State.ReactorStep)
  | owner (answers : State.Answers)

def State.step (s : State) : Step → State
  | .reactor step => s.react step
  | .owner answers => s.own answers

/-- The state a run of steps of either side ends in. -/
def run (steps : List Step) : State := History.after State.step {} steps

/-- The owner is at a late reply for a connection whose `Detach` it has taken, and the mailbox takes
no message. -/
def State.staleReply (s : State) : Bool :=
  match s.at with
  | .late ((id, _) :: _) => id ∈ s.ended && s.refuses
  | _ => false

/-- The step offers such a reply. -/
def StaleRefused (s : State) : Step → Prop
  | .owner _ => s.staleReply = true
  | .reactor _ => False

instance (s : State) : (step : Step) → Decidable (StaleRefused s step)
  | .owner _ => inferInstanceAs (Decidable (s.staleReply = true))
  | .reactor _ => .isFalse id

end LabRuntime.Server
