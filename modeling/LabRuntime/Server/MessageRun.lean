import LabRuntime.Server.FramingRun

/-! Every run of a WebSocket client, and the two transports side by side. -/

namespace LabRuntime.Server

open Wire Framing JsonText

namespace WebSocket

variable {json : Json} {texts : List (List UInt8)} {w : WebSocket}

/-- The requests are the decodings of these texts, in order. -/
def Reads (json : Json) (texts : List (List UInt8)) (requests : List Wire.WireRequest) : Prop :=
  texts.map (decodeApplicationJson json.serde) = requests.map .ok

theorem Reads.length {requests : List Wire.WireRequest} (h : Reads json texts requests) : texts.length = requests.length := by
  simpa using congrArg List.length h

theorem Reads.take {requests more : List Wire.WireRequest} (h : Reads json texts (requests ++ more)) :
    Reads json (texts.take requests.length) requests := by
  have htake := congrArg (List.take requests.length) h
  rwa [← List.map_take, List.map_append, List.take_left' (List.length_map _)] at htake

/-- What is submitted, and the request kept for later, are the first texts, decoded. While the client
is open, the others are not read. -/
def Carries (json : Json) (texts : List (List UInt8)) (w : WebSocket) : Prop :=
  ∃ taken left, texts = taken ++ left ∧ Reads json taken (w.submitted ++ w.staged.toList) ∧
    (w.ending = none → w.delivery.closing = false → left = w.unread)

/-- The texts end, or the next one is malformed or repeats an identity in flight. -/
def Stops (json : Json) (texts : List (List UInt8)) (w : WebSocket) : Prop :=
  w.staged = none ∧ ∀ text, texts[w.submitted.length]? = some text →
    ∀ r, decodeApplicationJson json.serde text = .ok r → w.delivery.requestIsInFlight r.msgId = true

theorem decode_oversized {text : List UInt8} (h : APPLICATION_JSON_LIMIT < text.length ∨ validUtf8 text = false)
    (r : Wire.WireRequest) : decodeApplicationJson json.serde text ≠ .ok r := by
  intro hread
  unfold decodeApplicationJson at hread
  obtain ⟨hshort, hread⟩ := Checks.reject_bind.1 hread
  obtain ⟨hutf8, -⟩ := Checks.reject_bind.1 hread
  rcases h with h | h
  · exact hshort h
  · exact hutf8 h

/-- One round: nothing to read, the client closes, or a message for the mailbox. -/
theorem readLoop_round (arrived : Bool) (answer : SendAnswer) (rounds : List (Bool × SendAnswer)) :
    w.readLoop json ((arrived, answer) :: rounds) = w ∨
    (∃ delivery rest, delivery.closing = true ∧ delivery.pendingIds = w.delivery.pendingIds ∧
      w.readLoop json ((arrived, answer) :: rounds) = { w with delivery := delivery, unread := rest } ∧
      (w.unread = [] ∨ ∃ text, w.unread = text :: rest ∧
        ∀ r, decodeApplicationJson json.serde text = .ok r → w.delivery.requestIsInFlight r.msgId = true)) ∨
    ∃ text rest request, w.unread = text :: rest ∧ decodeApplicationJson json.serde text = .ok request ∧
      w.readLoop json ((arrived, answer) :: rounds) =
        match deliverRequest { w with unread := rest } request answer with
        | (true, next) => readLoop json rounds next
        | (false, next) => next := by
  by_cases hidle : w.delivery.pendingFull = true ∨ arrived = false
  · refine .inl ?_
    rw [readLoop]
    rcases hidle with hfull | harrived
    · rw [if_pos hfull]
    · rw [if_pos harrived, ite_self]
  rw [not_or] at hidle
  rw [readLoop, if_neg hidle.1, if_neg hidle.2]
  cases hunread : w.unread with
  | nil =>
    by_cases hcloses : w.closes = true
    · refine .inr (.inl ⟨w.delivery.close, [], rfl, rfl, ?_, .inl rfl⟩)
      simp only [hcloses, if_true, ← hunread]
    · exact .inl (if_neg hcloses)
  | cons text rest =>
    dsimp only
    by_cases hover : APPLICATION_JSON_LIMIT < text.length ∨ validUtf8 text = false
    · rw [if_pos hover]
      exact .inr (.inl ⟨w.delivery.close, rest, rfl, rfl, rfl, .inr ⟨text, rfl, fun r hr => absurd hr (decode_oversized hover r)⟩⟩)
    rw [if_neg hover]
    cases hdecode : decodeApplicationJson json.serde text with
    | error error =>
      refine .inr (.inl ⟨w.delivery.rejectAndClose (rejection (correlation json text) error.code), rest, rfl, rfl, rfl,
        .inr ⟨text, rfl, fun r hr => ?_⟩⟩)
      rw [hdecode] at hr
      cases hr
    | ok request =>
      dsimp only
      by_cases hflight : w.delivery.requestIsInFlight request.msgId = true
      · rw [if_pos hflight]
        refine .inr (.inl ⟨w.delivery.rejectAndClose (rejection (some request.msgId) "duplicate_msg_id"), rest, rfl, rfl, rfl,
          .inr ⟨text, rfl, fun r hr => ?_⟩⟩)
        rw [hdecode] at hr
        cases hr
        exact hflight
      · rw [if_neg hflight]
        exact .inr (.inr ⟨text, rest, request, rfl, hdecode, rfl⟩)

theorem carries_open (hclosing : w.delivery.closing = false) {taken : List (List UInt8)} (htexts : texts = taken ++ w.unread)
    (hreads : Reads json taken (w.submitted ++ w.staged.toList)) :
    Carries json texts w ∧ (w.delivery.closing = true → Stops json texts w) := by
  refine ⟨⟨taken, w.unread, htexts, hreads, fun _ _ => rfl⟩, fun h => ?_⟩
  rw [hclosing] at h
  cases h

/-- The loop of a read, from a client that keeps nothing. -/
theorem readLoop_carries (rounds : List (Bool × SendAnswer)) (hstaged : w.staged = none) (hopen : w.ending = none)
    (hclosing : w.delivery.closing = false) {taken : List (List UInt8)} (htexts : texts = taken ++ w.unread)
    (hreads : Reads json taken w.submitted) :
    Carries json texts (w.readLoop json rounds) ∧
      ((w.readLoop json rounds).delivery.closing = true → Stops json texts (w.readLoop json rounds)) := by
  induction rounds generalizing w taken with
  | nil =>
    rw [readLoop]
    exact carries_open hclosing htexts (by simpa [hstaged] using hreads)
  | cons round rounds ih =>
    obtain ⟨arrived, answer⟩ := round
    rcases @readLoop_round json w arrived answer rounds with
      heq | ⟨delivery, rest, hcloses, hids, heq, hnext⟩ | ⟨text, rest, request, hunread, hdecode, heq⟩ <;> rw [heq]
    · exact carries_open hclosing htexts (by simpa [hstaged] using hreads)
    · refine ⟨⟨taken, w.unread, htexts, by simpa [hstaged] using hreads, fun _ hno => ?_⟩, fun _ => ⟨hstaged, ?_⟩⟩
      · rw [hcloses] at hno
        cases hno
      · intro text htext r hr
        show (decide (r.msgId ∈ delivery.pendingIds)) = true
        rw [hids]
        rw [htexts, ← hreads.length, List.getElem?_append_right le_rfl, Nat.sub_self] at htext
        rcases hnext with hnone | ⟨next, hunread, hbad⟩
        · rw [hnone] at htext
          cases htext
        · rw [hunread] at htext
          cases htext
          exact hbad r hr
    · -- the message is decoded: the mailbox takes it, or it is kept, or the owner is gone
      have hmore : Reads json (taken ++ [text]) (w.submitted ++ [request]) := by
        rw [Reads, List.map_append, List.map_append, hreads]
        simp [hdecode]
      have hsplit : texts = (taken ++ [text]) ++ rest := by rw [htexts, hunread, List.append_assoc]; rfl
      cases answer with
      | taken =>
        have hnext := @ih
          { w with
            staged := none
            delivery := w.delivery.requestAdmitted request.msgId
            submitted := w.submitted ++ [request]
            unread := rest }
          rfl hopen hclosing _ hsplit hmore
        exact hnext
      | full =>
        refine ⟨⟨taken ++ [text], rest, hsplit, hmore, fun _ _ => rfl⟩, fun h => ?_⟩
        rw [deliverRequest, hclosing] at h
        cases h
      | disconnected =>
        dsimp only [deliverRequest]
        refine ⟨⟨taken, w.unread, htexts, by simpa using hreads, fun h _ => ?_⟩, fun h => ?_⟩
        · cases h
        · rw [hclosing] at h
          cases h

/-- A read, from any open client. -/
theorem readMessages_carries (first : SendAnswer) (rounds : Fin 4 → Bool × SendAnswer) (h : Carries json texts w)
    (hopen : w.ending = none) (hclosing : w.delivery.closing = false) :
    Carries json texts (w.readMessages json first rounds) ∧
      ((w.readMessages json first rounds).delivery.closing = true → Stops json texts (w.readMessages json first rounds)) := by
  obtain ⟨taken, left, htexts, hreads, hleft⟩ := h
  obtain rfl := hleft hopen hclosing
  rw [readMessages]
  cases hstaged : w.staged with
  | none => exact readLoop_carries _ hstaged hopen hclosing htexts (by simpa [hstaged] using hreads)
  | some request =>
    rw [hstaged, Option.toList_some] at hreads
    cases first with
    | taken =>
      exact @readLoop_carries json texts
        { w with
          staged := none
          delivery := w.delivery.requestAdmitted request.msgId
          submitted := w.submitted ++ [request] }
        _ rfl hopen hclosing _ htexts hreads
    | full => exact carries_open hclosing htexts hreads
    | disconnected =>
      dsimp only [deliverRequest]
      refine ⟨⟨taken.take w.submitted.length, taken.drop w.submitted.length ++ w.unread, ?_, ?_, fun h _ => ?_⟩, fun h => ?_⟩
      · rw [← List.append_assoc, List.take_append_drop]
        exact htexts
      · rw [Option.toList_none, List.append_nil]
        exact hreads.take
      · cases h
      · rw [hclosing] at h
        cases h

/-- What becomes of a step. -/
theorem step_cases (json : Json) (w : WebSocket) (s : Step) :
    w.step json s = w ∨
    (∃ first rounds, s = .read first rounds ∧ w.ending = none ∧ w.delivery.closing = false ∧
      w.step json s = w.readMessages json first rounds) ∨
    (w.ending = none ∧ w.step json s = { w with ending := some .lost }) ∨
    ∃ x delivery, exchange w.delivery x = some delivery ∧ w.ending = none ∧
      w.step json s = { w with delivery := delivery } := by
  by_cases hended : w.ending.isSome = true
  · exact .inl (if_pos hended)
  have hopen : w.ending = none := by simpa using hended
  cases s with
  | read first rounds =>
    by_cases hclosing : w.delivery.closing = true
    · exact .inl ((if_neg hended).trans (if_pos hclosing))
    · exact .inr (.inl ⟨first, rounds, rfl, hopen, by simpa using hclosing, (if_neg hended).trans (if_neg hclosing)⟩)
  | exchange x =>
    cases hexchange : exchange w.delivery x with
    | none => exact .inr (.inr (.inl ⟨hopen, by simp [step, hended, hexchange]⟩))
    | some delivery => exact .inr (.inr (.inr ⟨x, delivery, hexchange, hopen, by simp [step, hended, hexchange]⟩))

theorem carries_step (s : Step) (h : Carries json texts w) : Carries json texts (w.step json s) := by
  rcases step_cases json w s with
    heq | ⟨first, rounds, -, hopen, hclosing, heq⟩ | ⟨-, heq⟩ | ⟨x, delivery, hexchange, hopen, heq⟩ <;> rw [heq]
  · exact h
  · exact (readMessages_carries first rounds h hopen hclosing).1
  · obtain ⟨taken, left, htexts, hreads, -⟩ := h
    refine ⟨taken, left, htexts, hreads, fun hno => ?_⟩
    cases hno
  · obtain ⟨taken, left, htexts, hreads, hleft⟩ := h
    refine ⟨taken, left, htexts, hreads, fun hend hno => hleft hend ?_⟩
    by_contra hclosing
    rw [Bool.not_eq_false] at hclosing
    rw [exchange_closing hexchange hclosing] at hno
    cases hno

theorem carries_run (steps : List Step) (h : Carries json texts w) : Carries json texts (w.run json steps) := by
  induction steps generalizing w with
  | nil => exact h
  | cons s steps ih => exact ih (carries_step s h)

theorem carries_start (json : Json) (texts : List (List UInt8)) (closes : Bool) : Carries json texts (start texts closes) :=
  ⟨[], texts, rfl, rfl, fun _ _ => rfl⟩

/-- A read closes the client where the texts end or at one it refuses. -/
theorem read_stops (h : Carries json texts w) {first : SendAnswer} {rounds : Fin 4 → Bool × SendAnswer}
    (hopen : w.ending = none) (hclosing : w.delivery.closing = false)
    (hcloses : (w.step json (.read first rounds)).delivery.closing = true) : Stops json texts (w.step json (.read first rounds)) := by
  have hstep : w.step json (.read first rounds) = w.readMessages json first rounds := by
    simp [step, hopen, hclosing]
  rw [hstep] at hcloses ⊢
  exact (readMessages_carries first rounds h hopen hclosing).2 hcloses

/-- A client that is gone or closing submits nothing more. -/
theorem step_silent {s : Step} (h : w.ending.isSome = true ∨ w.delivery.closing = true) :
    ((w.step json s).ending.isSome = true ∨ (w.step json s).delivery.closing = true) ∧
      (w.step json s).submitted = w.submitted := by
  rcases step_cases json w s with
    heq | ⟨first, rounds, -, hopen, hclosing, -⟩ | ⟨-, heq⟩ | ⟨x, delivery, hexchange, hopen, heq⟩
  · rw [heq]
    exact ⟨h, rfl⟩
  · rw [hopen, hclosing] at h
    rcases h with h | h <;> cases h
  · rw [heq]
    exact ⟨.inl rfl, rfl⟩
  · rw [heq]
    refine ⟨.inr (exchange_closing hexchange (h.resolve_left ?_)), rfl⟩
    simp [hopen]

theorem run_silent (h : w.ending.isSome = true ∨ w.delivery.closing = true) (more : List Step) :
    (w.run json more).submitted = w.submitted := by
  induction more generalizing w with
  | nil => rfl
  | cons s more ih =>
    obtain ⟨hsilent, hsame⟩ := @step_silent json _ s h
    exact (ih hsilent).trans hsame

end WebSocket

/-! ### Side by side -/

theorem decode_frameBody {json : Json} {f : List UInt8} {r : Wire.WireRequest}
    (h : decodeNdjsonFrame json.serde f = .ok r) : decodeApplicationJson json.serde (frameBody f) = .ok r := by
  rw [decodeNdjsonFrame] at h
  split_ifs at h
  exact h

theorem reads_of_decodes {json : Json} {fs : List (List UInt8)} {requests : List Wire.WireRequest}
    (h : Decodes json fs requests) : WebSocket.Reads json (fs.map frameBody) requests := by
  induction requests generalizing fs with
  | nil =>
    obtain rfl : fs = [] := by simpa [Decodes] using h
    rfl
  | cons r requests ih =>
    cases fs with
    | nil => exact absurd h.length (by simp)
    | cons f fs =>
      obtain ⟨hhead, htail⟩ := List.cons.inj h
      rw [WebSocket.Reads, List.map_cons, List.map_cons, decode_frameBody hhead, ih htail, List.map_cons]

/-- No text is left, or the next one is malformed. -/
def Exhausted (json : Json) (texts : List (List UInt8)) (submitted : List Wire.WireRequest) : Prop :=
  ∀ text, texts[submitted.length]? = some text → ∀ r, decodeApplicationJson json.serde text ≠ .ok r

/-- Of two clients that submit what the same texts start with, one submits what the other starts with. -/
theorem prefix_of_reads {json : Json} {texts : List (List UInt8)} {rs ss : List Wire.WireRequest}
    (hr : WebSocket.Reads json (texts.take rs.length) rs) (hs : WebSocket.Reads json (texts.take ss.length) ss)
    (hle : rs.length ≤ ss.length) : rs <+: ss := by
  have hall := congrArg (List.take rs.length) hs
  rw [← List.map_take, List.take_take, min_eq_left hle, hr, ← List.map_take] at hall
  rw [List.map_injective_iff.2 (fun a b h => by cases h; rfl) hall]
  exact List.take_prefix _ _

theorem eq_of_exhausted {json : Json} {texts : List (List UInt8)} {rs ss : List Wire.WireRequest}
    (hr : WebSocket.Reads json (texts.take rs.length) rs) (hs : WebSocket.Reads json (texts.take ss.length) ss)
    (hle : rs.length ≤ ss.length) (hend : Exhausted json texts rs) : rs = ss := by
  refine (prefix_of_reads hr hs hle).eq_of_length (le_antisymm hle ?_)
  by_contra hmore
  rw [not_le] at hmore
  have hlength := hs.length
  rw [List.length_take] at hlength
  have htext : rs.length < texts.length := by omega
  have hget := congrArg (fun results => results[rs.length]?) hs
  simp only [List.getElem?_map, List.getElem?_take_of_lt hmore, List.getElem?_eq_getElem htext,
    List.getElem?_eq_getElem hmore, Option.map_some, Option.some.injEq] at hget
  exact hend _ (List.getElem?_eq_getElem htext) _ hget

/-- As long as no read meets the end of the stream while a complete frame is held back, framing does
not depend on how the bytes arrive: whatever the reads take and whenever the mailbox or the window
is full, a TCP client submits the first frames of its stream, decoded, and stops only at a frame
that is refused or too long, or where the stream ends; a WebSocket client with the same bodies
submits the same requests. A read that meets the end with a frame held back drops it. -/
theorem transports_submit_in_order (json : Json) (stream : List UInt8) (closes : Bool) (steps : List Tcp.Step)
    (hkeeps : Tcp.Keeps json (Tcp.start stream closes) steps) (t : Tcp) (ht : t = (Tcp.start stream closes).run json steps) :
    t.Framed json stream ∧
    (t.ending.isSome = true ∨ t.peer.delivery.closing = true →
      ∀ more, (t.run json more).peer.submitted = t.peer.submitted) ∧
    (t.ending = none → t.peer.delivery.closing = false →
      (∀ first second arrival, (t.step json (.read first second arrival)).peer.delivery.closing = true →
        (t.step json (.read first second arrival)).peer.Refuses json) ∧
      (t.peer.delivery.pendingFull = false → ∀ count t',
        t' = t.step json (.read (fun _ => .taken) (fun _ => .taken) (.bytes count)) →
          t.peer.submitted.length < t'.peer.submitted.length ∨ t'.peer.Refuses json ∨ t'.ending.isSome = true ∨
            t'.unread.length < t.unread.length ∨ t.peer.submitted.length = (frames lineFeed stream).length)) ∧
    (∀ s, Tcp.Loses json t s → ¬ (t.step json s).Framed json stream) ∧
    ∀ texts, texts = (frames lineFeed stream).map frameBody → ∀ closes' messages w,
      w = (WebSocket.start texts closes').run json messages →
        w.Carries json texts ∧
        (w.ending.isSome = true ∨ w.delivery.closing = true →
          ∀ more, (w.run json more).submitted = w.submitted) ∧
        (w.ending = none → w.delivery.closing = false → ∀ first rounds,
          (w.step json (.read first rounds)).delivery.closing = true → (w.step json (.read first rounds)).Stops json texts) ∧
        (t.peer.submitted <+: w.submitted ∨ w.submitted <+: t.peer.submitted) ∧
        (Exhausted json texts t.peer.submitted → Exhausted json texts w.submitted → t.peer.submitted = w.submitted) := by
  have hframed : t.Framed json stream := ht ▸ Tcp.framed_run (Tcp.framed_start json stream closes) hkeeps
  refine ⟨hframed, fun hend => Tcp.run_silent hend, fun hopen hclosing => ⟨fun first second arrival =>
      Tcp.read_refuses hopen hclosing, fun hroom count t' ht' => Tcp.read_progress hframed hopen hclosing hroom count ht'⟩,
    fun s => Tcp.loses_drops, fun texts htexts closes' messages w hw => ?_⟩
  have hcarries : w.Carries json texts := hw ▸ WebSocket.carries_run messages (WebSocket.carries_start json texts closes')
  have htcp : WebSocket.Reads json (texts.take t.peer.submitted.length) t.peer.submitted := by
    rw [htexts, ← List.map_take]
    exact reads_of_decodes hframed.submits
  have hmessages : WebSocket.Reads json (texts.take w.submitted.length) w.submitted := by
    obtain ⟨taken, left, hsplit, hreads, -⟩ := hcarries
    have hlength := hreads.length
    rw [List.length_append] at hlength
    rw [hsplit, List.take_append_of_le_length (by omega)]
    exact hreads.take
  refine ⟨hcarries, fun hend => WebSocket.run_silent hend, fun hopen hclosing first rounds =>
    WebSocket.read_stops hcarries hopen hclosing, ?_, fun hend hend' => ?_⟩
  · rcases le_total t.peer.submitted.length w.submitted.length with hle | hle
    · exact .inl (prefix_of_reads htcp hmessages hle)
    · exact .inr (prefix_of_reads hmessages htcp hle)
  · rcases le_total t.peer.submitted.length w.submitted.length with hle | hle
    · exact eq_of_exhausted htcp hmessages hle hend
    · exact (eq_of_exhausted hmessages htcp hle hend').symm

/-- A request with an empty scope. -/
def helloBody : List UInt8 :=
  "\x7b\"v\":1,\"msg_id\":\"h\",\"op\":\"hello\",\"args\":\x7b\"scope\":null\x7d\x7d".toList.map byte

def helloRoot : Parsed :=
  .object [("args", .object [("scope", .null)]), ("msg_id", .string "h"), ("op", .string "hello"), ("v", .number (.unsigned 1))]

/-- The library on that text, and on texts that are no JSON. -/
def helloJson : Json where
  serde :=
    { scalars := ⟨fun _ => .error "invalid number", fun _ => .error "invalid string"⟩
      deserialize := fun body =>
        if body = helloBody then .ok (helloRoot, true) else .error "expected value at line 1 column 1" }
  msgId _ := none

def helloStream : List UInt8 := helloBody ++ [lineFeed]

/-- A client that sends the request and closes, with the mailbox full or not for both passes of two reads. -/
def helloReads (answer : SendAnswer) : List Tcp.Step :=
  [.read (fun _ => answer) (fun _ => answer) (.bytes 99), .read (fun _ => answer) (fun _ => answer) (.bytes 0)]

theorem helloReads_keeps : Tcp.Keeps helloJson (Tcp.start helloStream true) (helloReads .taken) := by
  refine ⟨fun hloses => ?_, fun hloses => ?_, trivial⟩
  · obtain ⟨-, -, hempty, -⟩ := hloses
    exact absurd hempty (by decide +kernel)
  · obtain ⟨-, -, -, -, requests, last, hheld⟩ := hloses
    have hempty : (Tcp.step helloJson (Tcp.start helloStream true)
        (.read (fun _ => .taken) (fun _ => .taken) (.bytes 99))).peer.input = [] := by decide +kernel
    have hlength := hheld.decodes.length
    rw [hempty] at hlength
    simp [frames] at hlength

theorem transports_submit_hello :
    ((Tcp.start helloStream true).run helloJson (helloReads .taken)).Framed helloJson helloStream ∧
      ((Tcp.start helloStream true).run helloJson (helloReads .taken)).peer.submitted.length = 1 :=
  ⟨(transports_submit_in_order helloJson helloStream true (helloReads .taken) helloReads_keeps _ rfl).1, by decide +kernel⟩

/-- The client sends a good request and closes while the mailbox is full: over TCP the request, already
buffered, is dropped; over a WebSocket it is kept until the mailbox has room. -/
theorem buffered_request_is_dropped :
    (decodeNdjsonFrame helloJson.serde helloStream).isOk = true ∧
    ((Tcp.start helloStream true).run helloJson (helloReads .full)).ending = some .closed ∧
    ((Tcp.start helloStream true).run helloJson (helloReads .full)).peer.submitted.length = 0 ∧
    ((WebSocket.start [helloBody] true).run helloJson
      [.read .full (fun _ => (true, .full)), .read .full (fun _ => (true, .full)),
        .read .taken (fun _ => (true, .taken))]).submitted.length = 1 := by
  decide +kernel

end LabRuntime.Server
