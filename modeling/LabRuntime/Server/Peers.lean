import LabRuntime.Lib.Framing
import LabRuntime.Server.Coordination
import LabRuntime.Wire.Request

/-! The two transports of a client: bytes cut into frames by line feeds, and text messages. Both
submit decoded requests to the owner's bounded mailbox. Deadlines are left out. -/

namespace LabRuntime.Server

open Wire

def lineFeed : UInt8 := 10
def carriageReturn : UInt8 := 13
def sweepBytes : ℕ := 8192

/-- The JSON library, with the `msg_id` it finds in a text that is not a request. -/
structure Json where
  serde : SerdeJson
  msgId : List UInt8 → Option String

/-- A frame without its line end. -/
def frameBody (frame : List UInt8) : List UInt8 :=
  if 2 ≤ frame.length ∧ frame[frame.length - 2]? = some carriageReturn then frame.take (frame.length - 2)
  else frame.take (frame.length - 1)

def decodeNdjsonFrame (serde : SerdeJson) (frame : List UInt8) : Except WireError Wire.WireRequest :=
  if FRAME_LIMIT < frame.length then .error ⟨"frame_too_large", "frame exceeds 16384 bytes"⟩
  else if frame.getLast? ≠ some lineFeed then .error ⟨"incomplete_frame", "frame needs LF"⟩
  else decodeApplicationJson serde (frameBody frame)

/-- The identity a malformed exchange is rejected under. -/
def correlation (json : Json) (text : List UInt8) : Option String :=
  (json.msgId text).filter fun id => !id.isEmpty && decide (id.utf8ByteSize ≤ 64)

/-- What the owner's mailbox makes of a request. -/
inductive SendAnswer
  | taken | full | disconnected
  deriving DecidableEq, Repr

/-- Why a connection is gone. -/
inductive Ending
  | closed | oversized | lost
  deriving DecidableEq, Repr

/-- What the reactor does with a client between its reads. -/
inductive Exchange
  | reply (message : Message) (consumed hello : Bool) (writing : Option Bool)
  | event (message : Message) (writing : Option Bool)
  | stageRejection (writing : Option Bool)
  | nextMessage
  | messageWritten (reply : Bool)
  | close

/-- `none` where a full queue drops the client. -/
def exchange (delivery : ClientDelivery) : Exchange → Option ClientDelivery
  | .reply message consumed hello writing => delivery.pushReply message consumed hello writing
  | .event message writing => delivery.pushEvent message writing
  | .stageRejection writing => some (delivery.stageRejection writing)
  | .nextMessage => some delivery.nextMessage.2
  | .messageWritten reply => some (delivery.messageWritten reply)
  | .close => some delivery.close

/-! ### Bytes -/

/-- The reading half of a TCP client. `submitted` is the history of its requests, which the code does not keep. -/
structure NdjsonPeer where
  input : List UInt8 := []
  delivery : ClientDelivery := {}
  submitted : List Wire.WireRequest := []

namespace NdjsonPeer

def reject (p : NdjsonPeer) (msgId : Option String) (code : String) : NdjsonPeer :=
  { p with delivery := p.delivery.rejectAndClose (rejection msgId code) }

/-- A request was handed over, and `rest` is what follows its frame. -/
def admitted (p : NdjsonPeer) (request : Wire.WireRequest) (rest : List UInt8) : NdjsonPeer :=
  { input := rest
    delivery := p.delivery.requestAdmitted request.msgId
    submitted := p.submitted ++ [request] }

/-- The loop of `dispatch_buffered`, one answer of the mailbox for every round. -/
def dispatch (json : Json) : List SendAnswer → NdjsonPeer → Bool × NdjsonPeer
  | [], p => (true, p)
  | answer :: answers, p =>
    if p.delivery.pendingFull = true then (true, p)
    else
      match p.input.findIdx? (· == lineFeed) with
      | none => (true, p)
      | some last =>
        match decodeNdjsonFrame json.serde (p.input.take (last + 1)) with
        | .error error => (true, p.reject (correlation json (p.input.take (last + 1))) error.code)
        | .ok request =>
          if p.delivery.requestIsInFlight request.msgId = true then (true, p.reject (some request.msgId) "duplicate_msg_id")
          else
            match answer with
            | .taken => dispatch json answers (p.admitted request (p.input.drop (last + 1)))
            | .full => (true, p)
            | .disconnected => (false, p)

def dispatchBuffered (json : Json) (answers : Fin 4 → SendAnswer) (p : NdjsonPeer) : Bool × NdjsonPeer :=
  dispatch json (List.ofFn answers) p

end NdjsonPeer

/-- What the socket has for one read. -/
inductive Arrival
  | nothing
  | bytes (count : ℕ)
  | failed

/-- A client on a socket: the bytes it has sent that were not read, and whether it closes after them. -/
structure Tcp where
  peer : NdjsonPeer := {}
  unread : List UInt8
  closes : Bool
  ending : Option Ending := none

namespace Tcp

/-- The result of the second pass is that of the read. -/
def passed (t : Tcp) (result : Bool × NdjsonPeer) (unread : List UInt8) : Tcp :=
  { t with peer := result.2, unread := unread, ending := if result.1 = true then t.ending else some .lost }

/-- What a read of the socket takes: at least a byte of what there is, and no more than fits. -/
def taken (p : NdjsonPeer) (unread : List UInt8) (count : ℕ) : List UInt8 :=
  unread.take (min (count + 1) (min (FRAME_LIMIT - p.input.length) sweepBytes))

/-- The read of the socket, and the second pass. -/
def receive (json : Json) (second : Fin 4 → SendAnswer) (arrival : Arrival) (t : Tcp) (p : NdjsonPeer) : Tcp :=
  match arrival with
  | .failed => { t with peer := p, ending := some .lost }
  | .nothing => t.passed (p.dispatchBuffered json second) t.unread
  | .bytes count =>
    if t.unread = [] then
      if t.closes = true then { t with peer := p, ending := some .closed }
      else t.passed (p.dispatchBuffered json second) t.unread
    else
      let read := taken p t.unread count
      if FRAME_LIMIT < p.input.length + read.length then
        { t with peer := p, unread := t.unread.drop read.length, ending := some .oversized }
      else
        t.passed (NdjsonPeer.dispatchBuffered json second { p with input := p.input ++ read }) (t.unread.drop read.length)

/-- `Peer::read`: `first` and `second` are the mailbox's answers to its two passes over the buffer. -/
def read (json : Json) (first second : Fin 4 → SendAnswer) (arrival : Arrival) (t : Tcp) : Tcp :=
  if t.peer.delivery.pendingFull = true then t
  else
    match t.peer.dispatchBuffered json first with
    | (false, p) => { t with peer := p, ending := some .lost }
    | (true, p) =>
      if p.delivery.pendingFull = true then { t with peer := p }
      else if FRAME_LIMIT - p.input.length = 0 then
        { t with peer := p, ending := if lineFeed ∈ p.input then t.ending else some .oversized }
      else receive json second arrival t p

inductive Step
  | read (first second : Fin 4 → SendAnswer) (arrival : Arrival)
  | exchange (x : Exchange)

/-- One step of the reactor; a client that is closing is read no more. -/
def step (json : Json) (t : Tcp) (s : Step) : Tcp :=
  if t.ending.isSome = true then t
  else
    match s with
    | .read first second arrival => if t.peer.delivery.closing = true then t else t.read json first second arrival
    | .exchange x =>
      match exchange t.peer.delivery x with
      | none => { t with ending := some .lost }
      | some delivery => { t with peer := { t.peer with delivery := delivery } }

def run (json : Json) (t : Tcp) (steps : List Step) : Tcp := steps.foldl (step json) t

/-- A client that sends these bytes. -/
def start (stream : List UInt8) (closes : Bool) : Tcp := { unread := stream, closes := closes }

end Tcp

/-! ### Messages -/

/-- A WebSocket client: the text messages it has sent that were not read, and whether it closes after them. -/
structure WebSocket where
  delivery : ClientDelivery := {}
  staged : Option Wire.WireRequest := none
  submitted : List Wire.WireRequest := []
  unread : List (List UInt8)
  closes : Bool
  ending : Option Ending := none

namespace WebSocket

def reject (w : WebSocket) (msgId : Option String) (code : String) : WebSocket :=
  { w with delivery := w.delivery.rejectAndClose (rejection msgId code) }

/-- `deliver_request`: a request the mailbox has no room for is kept. -/
def deliverRequest (w : WebSocket) (request : Wire.WireRequest) : SendAnswer → Bool × WebSocket
  | .taken =>
    (true, { w with staged := none, delivery := w.delivery.requestAdmitted request.msgId, submitted := w.submitted ++ [request] })
  | .full => (false, { w with staged := some request })
  | .disconnected => (false, { w with staged := none, ending := some .lost })

/-- The loop of `read_messages`: for every round whether a message has arrived, and the mailbox's answer. -/
def readLoop (json : Json) : List (Bool × SendAnswer) → WebSocket → WebSocket
  | [], w => w
  | (arrived, answer) :: rounds, w =>
    if w.delivery.pendingFull = true then w
    else if arrived = false then w
    else
      match w.unread with
      | [] => if w.closes = true then { w with delivery := w.delivery.close } else w
      | text :: texts =>
        -- the WebSocket library fails on these, and the peer starts the closing handshake
        if APPLICATION_JSON_LIMIT < text.length ∨ validUtf8 text = false then
          { w with delivery := w.delivery.close, unread := texts }
        else
        match decodeApplicationJson json.serde text with
        | .error error => { w.reject (correlation json text) error.code with unread := texts }
        | .ok request =>
          if w.delivery.requestIsInFlight request.msgId = true then
            { w.reject (some request.msgId) "duplicate_msg_id" with unread := texts }
          else
            match deliverRequest { w with unread := texts } request answer with
            | (true, next) => readLoop json rounds next
            | (false, next) => next

/-- `read_messages`: a request kept from before goes first. -/
def readMessages (json : Json) (first : SendAnswer) (rounds : Fin 4 → Bool × SendAnswer) (w : WebSocket) : WebSocket :=
  match w.staged with
  | some request =>
    match deliverRequest w request first with
    | (true, next) => readLoop json (List.ofFn rounds) next
    | (false, next) => next
  | none => readLoop json (List.ofFn rounds) w

inductive Step
  | read (first : SendAnswer) (rounds : Fin 4 → Bool × SendAnswer)
  | exchange (x : Exchange)

def step (json : Json) (w : WebSocket) (s : Step) : WebSocket :=
  if w.ending.isSome = true then w
  else
    match s with
    | .read first rounds => if w.delivery.closing = true then w else w.readMessages json first rounds
    | .exchange x =>
      match exchange w.delivery x with
      | none => { w with ending := some .lost }
      | some delivery => { w with delivery := delivery }

def run (json : Json) (w : WebSocket) (steps : List Step) : WebSocket := steps.foldl (step json) w

def start (texts : List (List UInt8)) (closes : Bool) : WebSocket := { unread := texts, closes := closes }

end WebSocket
end LabRuntime.Server
