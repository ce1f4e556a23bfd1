import LabRuntime.Server.Framed

/-! Every run of the two transports, whatever pieces the bytes arrive in and whenever the mailbox
is full: what is submitted are the first frames of the stream, decoded. -/

namespace LabRuntime.Server

open Wire Framing

variable {json : Json} {stream : List UInt8}

/-- No exchange opens a closing client again. -/
theorem exchange_closing {d d' : ClientDelivery} {x : Exchange} (h : exchange d x = some d') (hclosing : d.closing = true) :
    d'.closing = true := by
  cases x with
  | reply message consumed hello writing =>
    simp only [exchange, ClientDelivery.pushReply] at h
    split at h
    · cases h
    · cases h
      exact hclosing
  | event message writing =>
    simp only [exchange, ClientDelivery.pushEvent] at h
    split_ifs at h
    cases h
    exact hclosing
  | stageRejection writing =>
    cases h
    rw [ClientDelivery.stageRejection]
    split_ifs
    · split <;> exact hclosing
    · exact hclosing
  | nextMessage =>
    cases h
    rw [ClientDelivery.nextMessage]
    split <;> exact hclosing
  | messageWritten reply =>
    cases h
    exact hclosing
  | close =>
    cases h
    rfl

namespace NdjsonPeer

variable {p : NdjsonPeer}

theorem Refuses.read (h : p.Refuses json) (more : List UInt8) :
    Refuses json { p with input := p.input ++ more } := by
  obtain ⟨f, rest, hinput, hframe, hbad⟩ := h
  exact ⟨f, rest ++ more, by simp [hinput], hframe, hbad⟩

/-- A pass that starts at a refused frame stays there. -/
theorem Refuses.dispatch (h : p.Refuses json) (answers : List SendAnswer) :
    (dispatch json answers p).2.Refuses json := by
  cases answers with
  | nil => exact h
  | cons answer answers =>
    rcases @dispatch_round json p answer answers with
      ⟨heq, -⟩ | ⟨hrefuses, msgId, code, heq⟩ | ⟨f, rest, r, hinput, hframe, hdecode, hnew, -, -⟩
    · rw [heq]
      exact h
    · rw [heq]
      exact hrefuses.reject msgId code
    · obtain ⟨g, rest', hinput', hframe', hbad⟩ := h
      obtain rfl := frame_unique hinput hframe hinput' hframe'
      rw [hbad r hdecode] at hnew
      cases hnew

/-- What the peer has submitted are the frames the stream starts with; its buffer and `unread` are the rest. -/
def Follows (json : Json) (stream : List UInt8) (p : NdjsonPeer) (unread : List UInt8) : Prop :=
  ∃ fs, stream = fs.flatten ++ (p.input ++ unread) ∧ (∀ f ∈ fs, IsFrame lineFeed f) ∧ Decodes json fs p.submitted

theorem Follows.pass {unread : List UInt8} (h : p.Follows json stream unread) {p' : NdjsonPeer}
    {gs : List (List UInt8)} {rs : List Wire.WireRequest} (hpass : Pass json p p' gs rs) : p'.Follows json stream unread := by
  obtain ⟨fs, hstream, hframes, hdecodes⟩ := h
  refine ⟨fs ++ gs, ?_, fun f hf => ?_, ?_⟩
  · rw [hstream, hpass.input, List.flatten_append, List.append_assoc, List.append_assoc]
  · rcases List.mem_append.1 hf with hf | hf
    · exact hframes f hf
    · exact hpass.frames f hf
  · rw [hpass.submitted]
    exact hdecodes.append hpass.decodes

theorem Follows.read {unread : List UInt8} (h : p.Follows json stream unread) (n : ℕ) :
    Follows json stream { p with input := p.input ++ unread.take n } (unread.drop n) := by
  obtain ⟨fs, hstream, hframes, hdecodes⟩ := h
  refine ⟨fs, ?_, hframes, hdecodes⟩
  rw [hstream, List.append_assoc p.input, List.take_append_drop]

/-- What reading does to a peer and the bytes it has not read. -/
structure Moves (json : Json) (p : NdjsonPeer) (unread : List UInt8) (p' : NdjsonPeer) (unread' : List UInt8) : Prop where
  follows : ∀ stream, p.Follows json stream unread → p'.Follows json stream unread'
  bounded : p.input.length ≤ FRAME_LIMIT → p'.input.length ≤ FRAME_LIMIT
  submitted : p.submitted <+: p'.submitted
  refuses : p.Refuses json → p'.Refuses json
  closing : p'.delivery.closing = p.delivery.closing ∨ p'.Refuses json

theorem Moves.refl (json : Json) (p : NdjsonPeer) (unread : List UInt8) : Moves json p unread p unread :=
  ⟨fun _ => id, id, List.prefix_refl _, id, .inl rfl⟩

theorem Moves.trans {p' p'' : NdjsonPeer} {unread unread' unread'' : List UInt8} (h : Moves json p unread p' unread')
    (h' : Moves json p' unread' p'' unread'') : Moves json p unread p'' unread'' := by
  refine ⟨fun stream hp => h'.follows stream (h.follows stream hp), fun hp => h'.bounded (h.bounded hp),
    h.submitted.trans h'.submitted, fun hp => h'.refuses (h.refuses hp), ?_⟩
  rcases h'.closing with heq | hrefuses
  · rcases h.closing with heq' | hrefuses'
    · exact .inl (heq.trans heq')
    · exact .inr (h'.refuses hrefuses')
  · exact .inr hrefuses

theorem dispatch_moves (answers : List SendAnswer) (unread : List UInt8) :
    Moves json p unread (dispatch json answers p).2 unread := by
  obtain ⟨fs, rs, hpass, -⟩ := @dispatch_pass json answers p
  refine ⟨fun stream hp => hp.pass hpass, fun hbound => ?_, ?_, fun hp => hp.dispatch answers, hpass.closing⟩
  · have hlength := congrArg List.length hpass.input
    rw [List.length_append] at hlength
    omega
  · rw [hpass.submitted]
    exact List.prefix_append _ _

/-- With room for it, a pass hands the next frame over or refuses it. -/
theorem dispatch_progress (answers : List SendAnswer) (hroom : p.delivery.pendingFull = false) (hframe : lineFeed ∈ p.input) :
    p.submitted.length < (dispatch json (.taken :: answers) p).2.submitted.length ∨
      (dispatch json (.taken :: answers) p).2.Refuses json := by
  rcases @dispatch_round json p .taken answers with
    ⟨-, hfull | hnone⟩ | ⟨hrefuses, msgId, code, heq⟩ | ⟨f, rest, r, -, -, -, -, -, heq⟩
  · rw [hroom] at hfull
    cases hfull
  · exact absurd hframe hnone
  · rw [heq]
    exact .inr (hrefuses.reject msgId code)
  · rw [heq]
    have hgrows := (@dispatch_moves json (p.admitted r rest) answers []).submitted.length_le
    refine .inl (lt_of_lt_of_le ?_ hgrows)
    simp [admitted]

/-- With no frame to hand over, a pass does nothing. -/
theorem dispatch_idle (answers : List SendAnswer) (hnone : lineFeed ∉ p.input) : dispatch json answers p = (true, p) := by
  cases answers with
  | nil => rfl
  | cons answer answers =>
    rcases @dispatch_round json p answer answers with
      ⟨heq, -⟩ | ⟨⟨f, rest, hinput, hframe, -⟩, -⟩ | ⟨f, rest, r, hinput, hframe, -⟩
    · exact heq
    · exact absurd (mem_of_frame hinput hframe) hnone
    · exact absurd (mem_of_frame hinput hframe) hnone

theorem read_moves {unread : List UInt8} {n : ℕ} (hfits : p.input.length + (unread.take n).length ≤ FRAME_LIMIT) :
    Moves json p unread { p with input := p.input ++ unread.take n } (unread.drop n) :=
  ⟨fun _ hp => hp.read n, fun _ => by simpa using hfits, List.prefix_refl _, fun hp => hp.read _, .inl rfl⟩

end NdjsonPeer

namespace Tcp

open NdjsonPeer

variable {t : Tcp}

/-- The bytes taken fit the buffer: the check after the read never fails. -/
theorem taken_fits (p : NdjsonPeer) (unread : List UInt8) (count : ℕ) (h : p.input.length ≤ FRAME_LIMIT) :
    p.input.length + (taken p unread count).length ≤ FRAME_LIMIT := by
  rw [taken, List.length_take]
  omega

/-- What becomes of a read after its first pass. -/
theorem receive_cases {p : NdjsonPeer} (hfits : p.input.length ≤ FRAME_LIMIT) (second : Fin 4 → SendAnswer)
    (arrival : Arrival) :
    (receive json second arrival t p = { t with peer := p, ending := some .lost }) ∨
    (receive json second arrival t p = t.passed (p.dispatchBuffered json second) t.unread) ∨
    (∃ count, arrival = .bytes count ∧ t.unread = [] ∧ t.closes = true ∧
      receive json second arrival t p = { t with peer := p, ending := some .closed }) ∨
    ∃ count, arrival = .bytes count ∧ t.unread ≠ [] ∧
      receive json second arrival t p =
        t.passed (NdjsonPeer.dispatchBuffered json second { p with input := p.input ++ taken p t.unread count })
          (t.unread.drop (taken p t.unread count).length) := by
  cases arrival with
  | failed => exact .inl rfl
  | nothing => exact .inr (.inl rfl)
  | bytes count =>
    simp only [receive]
    split_ifs with hempty hcloses hover
    · exact .inr (.inr (.inl ⟨count, rfl, hempty, hcloses, rfl⟩))
    · exact .inr (.inl rfl)
    · exact absurd (taken_fits p t.unread count hfits) (by omega)
    · exact .inr (.inr (.inr ⟨count, rfl, hempty, rfl⟩))

/-- What becomes of a read. -/
theorem read_cases (first second : Fin 4 → SendAnswer) (arrival : Arrival) :
    (t.peer.delivery.pendingFull = true ∧ t.read json first second arrival = t) ∨
    ((t.peer.dispatchBuffered json first).1 = false ∧
      t.read json first second arrival = { t with peer := (t.peer.dispatchBuffered json first).2, ending := some .lost }) ∨
    ((t.peer.dispatchBuffered json first).2.delivery.pendingFull = true ∧
      t.read json first second arrival = { t with peer := (t.peer.dispatchBuffered json first).2 }) ∨
    (FRAME_LIMIT ≤ (t.peer.dispatchBuffered json first).2.input.length ∧
      t.read json first second arrival =
        { t with
          peer := (t.peer.dispatchBuffered json first).2
          ending := if lineFeed ∈ (t.peer.dispatchBuffered json first).2.input then t.ending else some .oversized }) ∨
    ((t.peer.dispatchBuffered json first).1 = true ∧
      (t.peer.dispatchBuffered json first).2.delivery.pendingFull = false ∧
      (t.peer.dispatchBuffered json first).2.input.length < FRAME_LIMIT ∧
      t.read json first second arrival = receive json second arrival t (t.peer.dispatchBuffered json first).2) := by
  by_cases hfull : t.peer.delivery.pendingFull = true
  · exact .inl ⟨hfull, by rw [read, if_pos hfull]⟩
  rw [read, if_neg hfull]
  rcases t.peer.dispatchBuffered json first with ⟨up, p⟩
  cases up with
  | false => exact .inr (.inl ⟨rfl, rfl⟩)
  | true =>
    dsimp only
    by_cases hfull' : p.delivery.pendingFull = true
    · exact .inr (.inr (.inl ⟨hfull', by rw [if_pos hfull']⟩))
    rw [if_neg hfull']
    by_cases hspace : FRAME_LIMIT - p.input.length = 0
    · exact .inr (.inr (.inr (.inl ⟨by omega, by rw [if_pos hspace]⟩)))
    · exact .inr (.inr (.inr (.inr ⟨rfl, by simpa using hfull', by omega, by rw [if_neg hspace]⟩)))

theorem taken_take (p : NdjsonPeer) (unread : List UInt8) (count : ℕ) :
    taken p unread count = unread.take (taken p unread count).length := by
  rw [taken, List.length_take, List.take_eq_take_iff]
  omega

theorem passed_moves {p : NdjsonPeer} {unread unread' : List UInt8} {q : NdjsonPeer} (answers : Fin 4 → SendAnswer)
    (h : Moves json q unread p unread') :
    Moves json q unread (t.passed (p.dispatchBuffered json answers) unread').peer
      (t.passed (p.dispatchBuffered json answers) unread').unread :=
  h.trans (dispatch_moves _ unread')

/-- What a read does after its first pass. -/
theorem receive_moves {p : NdjsonPeer} (hspace : p.input.length ≤ FRAME_LIMIT) (second : Fin 4 → SendAnswer) (arrival : Arrival) :
    Moves json p t.unread (receive json second arrival t p).peer (receive json second arrival t p).unread := by
  rcases @receive_cases json t _ hspace second arrival with
    heq | heq | ⟨_, -, -, -, heq⟩ | ⟨count, -, -, heq⟩ <;> rw [heq]
  · exact Moves.refl json p t.unread
  · exact passed_moves second (Moves.refl json p t.unread)
  · exact Moves.refl json p t.unread
  · have hfits := taken_fits p t.unread count hspace
    have htake := taken_take p t.unread count
    refine passed_moves second ?_
    rw [htake] at hfits
    have hmoves := @NdjsonPeer.read_moves json _ _ _ hfits
    rwa [← htake] at hmoves

/-- A read that is not held up by the pending window starts with its first pass. -/
theorem read_after_first (first second : Fin 4 → SendAnswer) (arrival : Arrival) (hroom : t.peer.delivery.pendingFull = false) :
    Moves json (t.peer.dispatchBuffered json first).2 t.unread (t.read json first second arrival).peer
      (t.read json first second arrival).unread := by
  rcases @Tcp.read_cases json t first second arrival with
    ⟨hfull, -⟩ | ⟨-, heq⟩ | ⟨-, heq⟩ | ⟨-, heq⟩ | ⟨-, -, hspace, heq⟩
  · rw [hroom] at hfull
    cases hfull
  · rw [heq]
    exact Moves.refl json _ _
  · rw [heq]
    exact Moves.refl json _ _
  · rw [heq]
    exact Moves.refl json _ _
  · rw [heq]
    exact receive_moves hspace.le second arrival

theorem read_moves (first second : Fin 4 → SendAnswer) (arrival : Arrival) :
    Moves json t.peer t.unread (t.read json first second arrival).peer (t.read json first second arrival).unread := by
  by_cases hfull : t.peer.delivery.pendingFull = true
  · rw [read, if_pos hfull]
    exact Moves.refl json t.peer t.unread
  · exact (dispatch_moves _ _).trans (read_after_first first second arrival (by simpa using hfull))

theorem passed_ending (hopen : t.ending = none) (result : Bool × NdjsonPeer) (unread : List UInt8) :
    (t.passed result unread).ending = none ∨ (t.passed result unread).ending = some .lost := by
  rw [passed]
  split_ifs
  · exact .inl hopen
  · exact .inr rfl

/-- A read that fills the buffer without a line feed ends the connection; no other does so. -/
theorem read_oversized {first second : Fin 4 → SendAnswer} {arrival : Arrival} (hopen : t.ending = none)
    (hbound : t.peer.input.length ≤ FRAME_LIMIT) (h : (t.read json first second arrival).ending = some .oversized) :
    lineFeed ∉ (t.read json first second arrival).peer.input ∧
      (t.read json first second arrival).peer.input.length = FRAME_LIMIT := by
  rcases @Tcp.read_cases json t first second arrival with
    ⟨-, heq⟩ | ⟨-, heq⟩ | ⟨-, heq⟩ | ⟨hspace, heq⟩ | ⟨-, -, hspace, heq⟩
  · rw [heq, hopen] at h
    cases h
  · rw [heq] at h
    cases h
  · rw [heq] at h
    exact absurd (hopen.symm.trans h) (by simp)
  · rw [heq] at h ⊢
    dsimp only at h ⊢
    split_ifs at h with hmark
    · rw [hopen] at h
      cases h
    · refine ⟨hmark, le_antisymm ?_ hspace⟩
      exact (@dispatch_moves json _ _ t.unread).bounded hbound
  · rw [heq] at h
    rcases @receive_cases json t _ hspace.le second arrival with
      heq' | heq' | ⟨_, -, -, -, heq'⟩ | ⟨count, -, -, heq'⟩ <;> rw [heq'] at h
    · cases h
    · rcases passed_ending hopen _ _ with hend | hend <;> rw [hend] at h <;> cases h
    · cases h
    · rcases passed_ending hopen _ _ with hend | hend <;> rw [hend] at h <;> cases h

/-- A pass over the buffer hands these requests over and stops before `last`: the mailbox has no
room for it, or it is the fifth. It would be admitted, and the socket is read next. -/
structure HeldBack (json : Json) (answers : List SendAnswer) (p : NdjsonPeer) (requests : List Wire.WireRequest)
    (last : Wire.WireRequest) : Prop where
  decodes : Decodes json ((frames lineFeed p.input).take (requests.length + 1)) (requests ++ [last])
  distinct : ((requests ++ [last]).map (·.msgId)).Nodup
  fresh : ∀ r ∈ requests ++ [last], p.delivery.requestIsInFlight r.msgId = false
  taken : ∀ i, i < requests.length → answers[i]? = some .taken
  stopped : answers[requests.length]? = none ∨ answers[requests.length]? = some .full
  window : p.delivery.pending + requests.length < clientIn
  space : p.input.length < FRAME_LIMIT + ((frames lineFeed p.input).take requests.length).flatten.length

/-- The read meets the end of the client's stream while a complete frame is held back. -/
def Loses (json : Json) (t : Tcp) : Step → Prop
  | .read first _ (.bytes _) =>
    t.ending = none ∧ t.peer.delivery.closing = false ∧ t.unread = [] ∧ t.closes = true ∧
      ∃ requests last, HeldBack json (List.ofFn first) t.peer requests last
  | _ => False

/-- No read of the run meets the end of the stream while a frame is held back. -/
def Keeps (json : Json) : Tcp → List Step → Prop
  | _, [] => True
  | t, s :: steps => ¬ Loses json t s ∧ Keeps json (t.step json s) steps

/-- What a pass leaves, with the mailbox no reason to stop, is refused or incomplete. -/
theorem left_of_not_held {answers : List SendAnswer} {p : NdjsonPeer}
    (hup : (dispatch json answers p).1 = true) (hroom : (dispatch json answers p).2.delivery.pendingFull = false)
    (hspace : (dispatch json answers p).2.input.length < FRAME_LIMIT)
    (hheld : ¬ ∃ requests last, HeldBack json answers p requests last) :
    (dispatch json answers p).2.Refuses json ∨ lineFeed ∉ (dispatch json answers p).2.input := by
  obtain ⟨fs, rs, hpass, hstop⟩ := @dispatch_pass json answers p
  rcases hstop hup with hfull | hnone | hrefuses | ⟨htaken, hend⟩
  · rw [hroom] at hfull
    cases hfull
  · exact .inr hnone
  · exact .inl hrefuses
  -- the mailbox stopped the pass: the frame it left, if any, is refused
  by_contra hleft
  rw [not_or, not_not] at hleft
  obtain ⟨f, rest, hinput, hframe⟩ := exists_frame hleft.2
  have hgood : ∃ r, decodeNdjsonFrame json.serde f = .ok r ∧
      (dispatch json answers p).2.delivery.requestIsInFlight r.msgId = false := by
    by_contra hbad
    refine hleft.1 ⟨f, rest, hinput, hframe, fun r hr => ?_⟩
    by_contra hflight
    exact hbad ⟨r, hr, by simpa using hflight⟩
  obtain ⟨last, hlast, hfresh⟩ := hgood
  have hframes : frames lineFeed p.input = fs ++ f :: frames lineFeed rest := by
    rw [hpass.input, take_frames hpass.frames, hinput, frames_frame hframe]
  have hlength := hpass.decodes.length
  rw [← Bool.not_eq_true, hpass.flight, not_or] at hfresh
  have htake : (frames lineFeed p.input).take rs.length = fs := by
    rw [hframes, ← hlength, List.take_left]
  have hnext : (frames lineFeed p.input).take (rs.length + 1) = fs ++ [f] := by
    rw [hframes, ← hlength, List.take_length_add_append]
    rfl
  refine hheld ⟨rs, last, ?_, ?_, fun r hr => ?_, htaken, hend, ?_, ?_⟩
  · rw [hnext]
    exact hpass.decodes.append (show Decodes json [f] [last] by simp [Decodes, hlast])
  · rw [List.map_append, List.nodup_append]
    refine ⟨hpass.fresh, List.nodup_singleton _, fun id hid other hother heq => hfresh.2 ?_⟩
    rw [List.map_singleton, List.mem_singleton] at hother
    rwa [← hother, ← heq]
  · rcases List.mem_append.1 hr with hr | hr
    · exact hpass.new r hr
    · rw [List.mem_singleton.1 hr]
      simpa using hfresh.1
  · rw [ClientDelivery.pendingFull, decide_eq_false_iff_not, hpass.pending] at hroom
    omega
  · rw [htake]
    have hinputs := congrArg List.length hpass.input
    rw [List.length_append] at hinputs
    omega

/-- A read that meets the end of the stream has handed over all it could. -/
theorem read_closed {first second : Fin 4 → SendAnswer} {arrival : Arrival} (hopen : t.ending = none)
    (hclosing : t.peer.delivery.closing = false) (hkeeps : ¬ Loses json t (.read first second arrival))
    (h : (t.read json first second arrival).ending = some .closed) :
    (t.read json first second arrival).unread = [] ∧
      ((t.read json first second arrival).peer.Refuses json ∨
        lineFeed ∉ (t.read json first second arrival).peer.input) := by
  rcases @Tcp.read_cases json t first second arrival with
    ⟨-, heq⟩ | ⟨-, heq⟩ | ⟨-, heq⟩ | ⟨hspace, heq⟩ | ⟨hup, hroom, hspace, heq⟩ <;> rw [heq] at h
  · rw [hopen] at h
    cases h
  · cases h
  · exact absurd (hopen.symm.trans h) (by simp)
  · dsimp only at h
    split_ifs at h
    · rw [hopen] at h
      cases h
    · cases h
  · rw [heq]
    rcases @receive_cases json t _ hspace.le second arrival with
      heq' | heq' | ⟨count, harrival, hempty, hcloses, heq'⟩ | ⟨count, -, -, heq'⟩ <;> rw [heq'] at h
    · cases h
    · rcases passed_ending hopen _ _ with hend | hend <;> rw [hend] at h <;> cases h
    · rw [heq']
      rw [harrival] at hkeeps
      exact ⟨hempty, left_of_not_held hup hroom hspace fun hheld => hkeeps ⟨hopen, hclosing, hempty, hcloses, hheld⟩⟩
    · rcases passed_ending hopen _ _ with hend | hend <;> rw [hend] at h <;> cases h

/-- A TCP client and its stream: the first frames are submitted, decoded; what follows them is in the
buffer or not read; where the stream has ended no frame is left that could be submitted, and where
the connection was given up for an oversized frame, no line feed is among its first 16384 bytes. -/
structure Framed (json : Json) (stream : List UInt8) (t : Tcp) : Prop where
  submits : Decodes json ((frames lineFeed stream).take t.peer.submitted.length) t.peer.submitted
  rest : stream = ((frames lineFeed stream).take t.peer.submitted.length).flatten ++ (t.peer.input ++ t.unread)
  bounded : t.peer.input.length ≤ FRAME_LIMIT
  closed : t.ending = some .closed →
    t.peer.Refuses json ∨ t.peer.submitted.length = (frames lineFeed stream).length
  oversized : t.ending = some .oversized → lineFeed ∉ t.peer.input ∧ t.peer.input.length = FRAME_LIMIT

theorem follows_of_framed (h : Framed json stream t) : t.peer.Follows json stream t.unread := by
  refine ⟨_, h.rest, fun f hf => ?_, h.submits⟩
  exact isFrame_of_mem (List.mem_of_mem_take hf)

theorem take_of_follows {p : NdjsonPeer} {unread : List UInt8} (h : p.Follows json stream unread) :
    frames lineFeed stream =
      (frames lineFeed stream).take p.submitted.length ++ frames lineFeed (p.input ++ unread) ∧
    Decodes json ((frames lineFeed stream).take p.submitted.length) p.submitted ∧
    stream = ((frames lineFeed stream).take p.submitted.length).flatten ++ (p.input ++ unread) := by
  obtain ⟨fs, hstream, hframes, hdecodes⟩ := h
  have hall : frames lineFeed stream = fs ++ frames lineFeed (p.input ++ unread) := by
    rw [hstream, take_frames hframes]
  have htake : (frames lineFeed stream).take p.submitted.length = fs := by
    rw [hall, ← hdecodes.length, List.take_left]
  rw [htake]
  exact ⟨hall, hdecodes, hstream⟩

theorem framed_read {first second : Fin 4 → SendAnswer} {arrival : Arrival} (h : Framed json stream t)
    (hopen : t.ending = none) (hclosing : t.peer.delivery.closing = false)
    (hkeeps : ¬ Loses json t (.read first second arrival)) : Framed json stream (t.read json first second arrival) := by
  have hmoves := @Tcp.read_moves json t first second arrival
  have hfollows := hmoves.follows stream (follows_of_framed h)
  obtain ⟨hall, hsubmits, hrest⟩ := take_of_follows hfollows
  refine ⟨hsubmits, hrest, hmoves.bounded h.bounded, fun hclosed => ?_, fun hover => ?_⟩
  · obtain ⟨hempty, hleft⟩ := read_closed hopen hclosing hkeeps hclosed
    refine hleft.imp id fun hnone => ?_
    rw [hempty, List.append_nil, frames_of_not_mem hnone, List.append_nil] at hall
    have hlength := congrArg List.length hall
    rw [List.length_take] at hlength
    have hle := hsubmits.length
    rw [List.length_take] at hle
    omega
  · exact read_oversized hopen h.bounded hover

/-- What becomes of a step. -/
theorem step_cases (json : Json) (t : Tcp) (s : Step) :
    t.step json s = t ∨
    (∃ first second arrival, s = .read first second arrival ∧ t.ending = none ∧ t.peer.delivery.closing = false ∧
      t.step json s = t.read json first second arrival) ∨
    (t.ending = none ∧ t.step json s = { t with ending := some .lost }) ∨
    ∃ x delivery, exchange t.peer.delivery x = some delivery ∧ t.ending = none ∧
      t.step json s = { t with peer := { t.peer with delivery := delivery } } := by
  by_cases hended : t.ending.isSome = true
  · exact .inl (if_pos hended)
  have hopen : t.ending = none := by simpa using hended
  cases s with
  | read first second arrival =>
    by_cases hclosing : t.peer.delivery.closing = true
    · exact .inl ((if_neg hended).trans (if_pos hclosing))
    · exact .inr (.inl ⟨first, second, arrival, rfl, hopen, by simpa using hclosing, (if_neg hended).trans (if_neg hclosing)⟩)
  | exchange x =>
    cases hexchange : exchange t.peer.delivery x with
    | none => exact .inr (.inr (.inl ⟨hopen, by simp [step, hended, hexchange]⟩))
    | some delivery => exact .inr (.inr (.inr ⟨x, delivery, hexchange, hopen, by simp [step, hended, hexchange]⟩))

theorem framed_step {s : Step} (h : Framed json stream t) (hkeeps : ¬ Loses json t s) :
    Framed json stream (t.step json s) := by
  rcases step_cases json t s with
    heq | ⟨first, second, arrival, rfl, hopen, hclosing, heq⟩ | ⟨-, heq⟩ | ⟨x, delivery, -, hopen, heq⟩ <;> rw [heq]
  · exact h
  · exact framed_read h hopen hclosing hkeeps
  · refine ⟨h.submits, h.rest, h.bounded, fun hend => ?_, fun hend => ?_⟩ <;> cases hend
  · refine ⟨h.submits, h.rest, h.bounded, fun hend => ?_, fun hend => ?_⟩ <;>
      exact absurd (hopen.symm.trans hend) (by simp)

theorem framed_run {steps : List Step} (h : Framed json stream t) (hkeeps : Keeps json t steps) :
    Framed json stream (t.run json steps) := by
  induction steps generalizing t with
  | nil => exact h
  | cons s steps ih => exact ih (framed_step h hkeeps.1) hkeeps.2

theorem framed_start (json : Json) (stream : List UInt8) (closes : Bool) :
    Framed json stream (start stream closes) := by
  refine ⟨rfl, rfl, Nat.zero_le _, fun h => ?_, fun h => ?_⟩ <;> cases h

/-- A client that is gone or closing submits nothing more. -/
theorem step_silent {s : Step} (h : t.ending.isSome = true ∨ t.peer.delivery.closing = true) :
    ((t.step json s).ending.isSome = true ∨ (t.step json s).peer.delivery.closing = true) ∧
      (t.step json s).peer.submitted = t.peer.submitted := by
  rcases step_cases json t s with
    heq | ⟨first, second, arrival, -, hopen, hclosing, -⟩ | ⟨-, heq⟩ | ⟨x, delivery, hexchange, hopen, heq⟩
  · rw [heq]
    exact ⟨h, rfl⟩
  · rw [hopen, hclosing] at h
    rcases h with h | h <;> cases h
  · rw [heq]
    exact ⟨.inl rfl, rfl⟩
  · rw [heq]
    refine ⟨.inr (exchange_closing hexchange (h.resolve_left ?_)), rfl⟩
    simp [hopen]

theorem run_silent (h : t.ending.isSome = true ∨ t.peer.delivery.closing = true) (more : List Step) :
    (t.run json more).peer.submitted = t.peer.submitted := by
  induction more generalizing t with
  | nil => rfl
  | cons s more ih =>
    obtain ⟨hsilent, hsame⟩ := @step_silent json _ s h
    exact (ih hsilent).trans hsame

/-- A read closes the client at a frame it refuses. -/
theorem read_refuses {first second : Fin 4 → SendAnswer} {arrival : Arrival} (hopen : t.ending = none)
    (hclosing : t.peer.delivery.closing = false)
    (h : (t.step json (.read first second arrival)).peer.delivery.closing = true) :
    (t.step json (.read first second arrival)).peer.Refuses json := by
  have hstep : t.step json (.read first second arrival) = t.read json first second arrival := by
    simp [step, hopen, hclosing]
  rw [hstep] at h ⊢
  rcases (@Tcp.read_moves json t first second arrival).closing with heq | hrefuses
  · rw [heq, hclosing] at h
    cases h
  · exact hrefuses

/-- A read with room in the window and in the mailbox gets on: it hands a frame over, refuses one,
ends, or takes bytes; unless all there is to submit is submitted. -/
theorem read_progress (hframed : Framed json stream t) (hopen : t.ending = none) (hclosing : t.peer.delivery.closing = false)
    (hroom : t.peer.delivery.pendingFull = false) (count : ℕ) {t' : Tcp}
    (ht' : t' = t.step json (.read (fun _ => .taken) (fun _ => .taken) (.bytes count))) :
    t.peer.submitted.length < t'.peer.submitted.length ∨ t'.peer.Refuses json ∨ t'.ending.isSome = true ∨
      t'.unread.length < t.unread.length ∨ t.peer.submitted.length = (frames lineFeed stream).length := by
  have hstep : t' = t.read json (fun _ => .taken) (fun _ => .taken) (.bytes count) := by
    simp [ht', step, hopen, hclosing]
  by_cases hframe : lineFeed ∈ t.peer.input
  · -- what the first pass does is not undone
    have hfirst : _ ∨ (t.peer.dispatchBuffered json fun _ => .taken).2.Refuses json :=
      dispatch_progress [.taken, .taken, .taken] hroom hframe
    have hafter := @read_after_first json _ (fun _ => .taken) (fun _ => .taken) (.bytes count) hroom
    rw [← hstep] at hafter
    rcases hfirst with hgrows | hrefuses
    · exact .inl (lt_of_lt_of_le hgrows hafter.submitted.length_le)
    · exact .inr (.inl (hafter.refuses hrefuses))
  · have hidle : t.peer.dispatchBuffered json (fun _ => .taken) = (true, t.peer) := dispatch_idle _ hframe
    rw [read, hidle, if_neg (by simp [hroom])] at hstep
    dsimp only at hstep
    rw [if_neg (by simp [hroom])] at hstep
    split_ifs at hstep with hspace
    · exact .inr (.inr (.inl (by simp [hstep])))
    simp only [receive] at hstep
    split_ifs at hstep with hempty hcloses hover
    · exact .inr (.inr (.inl (by simp [hstep])))
    · -- nothing is left of the stream
      obtain ⟨hall, hsubmits, -⟩ := take_of_follows (follows_of_framed hframed)
      rw [hempty, List.append_nil, frames_of_not_mem hframe, List.append_nil] at hall
      have hlength := hsubmits.length
      rw [← hall] at hlength
      exact .inr (.inr (.inr (.inr hlength.symm)))
    · exact .inr (.inr (.inl (by simp [hstep])))
    · refine .inr (.inr (.inr (.inl ?_)))
      have hmore := List.length_pos_iff.2 hempty
      have hsweep : 0 < sweepBytes := by decide
      rw [hstep, passed, List.length_drop, taken, List.length_take]
      omega

/-- A pass over the buffer stops where a frame is held back. -/
theorem held_dispatch {requests : List Wire.WireRequest} {last : Wire.WireRequest} {answers : List SendAnswer}
    {p : NdjsonPeer} (hdecodes : Decodes json ((frames lineFeed p.input).take (requests.length + 1)) (requests ++ [last]))
    (hdistinct : ((requests ++ [last]).map (·.msgId)).Nodup)
    (hfresh : ∀ r ∈ requests ++ [last], p.delivery.requestIsInFlight r.msgId = false)
    (htaken : ∀ i, i < requests.length → answers[i]? = some .taken)
    (hstopped : answers[requests.length]? = none ∨ answers[requests.length]? = some .full)
    (hwindow : p.delivery.pending + requests.length < clientIn) :
    (dispatch json answers p).1 = true ∧ (dispatch json answers p).2.delivery.pendingFull = false ∧
      ¬ (dispatch json answers p).2.Refuses json ∧ lineFeed ∈ (dispatch json answers p).2.input ∧
      p.input.length = ((frames lineFeed p.input).take requests.length).flatten.length +
        (dispatch json answers p).2.input.length := by
  induction requests generalizing answers p with
  | nil =>
    have hmark : lineFeed ∈ p.input := by
      by_contra hnone
      rw [frames_of_not_mem hnone] at hdecodes
      exact absurd hdecodes.length (by simp)
    have hrefuses : ¬ p.Refuses json := by
      rintro ⟨f, rest, hinput, hframe, hbad⟩
      rw [hinput, frames_frame hframe] at hdecodes
      have hlast : decodeNdjsonFrame json.serde f = .ok last := by simpa [Decodes] using hdecodes
      have hno := hfresh last (by simp)
      rw [hbad last hlast] at hno
      cases hno
    have hroom : p.delivery.pendingFull = false := by
      simpa [ClientDelivery.pendingFull] using hwindow
    have hidle : dispatch json answers p = (true, p) := by
      cases answers with
      | nil => rfl
      | cons answer answers =>
        obtain rfl : answer = .full := by simpa using hstopped
        rcases @dispatch_round json p .full answers with
          ⟨heq, -⟩ | ⟨hbad, -⟩ | ⟨_, _, _, -, -, -, -, -, heq⟩
        · exact heq
        · exact absurd hbad hrefuses
        · exact heq
    rw [hidle]
    exact ⟨rfl, hroom, hrefuses, hmark, by simp⟩
  | cons r requests ih =>
    obtain ⟨answers, rfl⟩ : ∃ tail, answers = .taken :: tail := by
      cases answers with
      | nil => exact absurd (htaken 0 (by simp)) (by simp)
      | cons answer tail =>
        obtain rfl : answer = .taken := by simpa using htaken 0 (by simp)
        exact ⟨tail, rfl⟩
    rw [List.length_cons] at hwindow
    rcases @dispatch_round json p .taken answers with
      ⟨-, hfull | hnone⟩ | ⟨⟨f, rest, hinput, hframe, hbad⟩, -⟩ | ⟨f, rest, r', hinput, hframe, hr', -, -, heq⟩
    · rw [ClientDelivery.pendingFull, decide_eq_true_eq] at hfull
      omega
    · rw [frames_of_not_mem hnone] at hdecodes
      exact absurd hdecodes.length (by simp)
    · rw [hinput, frames_frame hframe] at hdecodes
      have hr : decodeNdjsonFrame json.serde f = .ok r := (List.cons.inj hdecodes).1
      have hno := hfresh r (by simp)
      rw [hbad r hr] at hno
      cases hno
    · have hframes : frames lineFeed p.input = f :: frames lineFeed rest := by rw [hinput, frames_frame hframe]
      rw [hframes] at hdecodes
      obtain ⟨hr, htail⟩ := List.cons.inj hdecodes
      obtain rfl : r' = r := by simpa [hr'] using hr
      rw [List.cons_append, List.map_cons, List.nodup_cons] at hdistinct
      have hafter := @ih answers (p.admitted r' rest) htail hdistinct.2 (fun other hother => ?_)
        (fun i hi => htaken (i + 1) (by simpa using hi)) hstopped
        (by show p.delivery.pending + 1 + requests.length < clientIn; omega)
      · rw [heq, hframes, hinput]
        dsimp only
        refine ⟨hafter.1, hafter.2.1, hafter.2.2.1, hafter.2.2.2.1, ?_⟩
        have hlength : rest.length = ((frames lineFeed rest).take requests.length).flatten.length +
            (dispatch json answers (p.admitted r' rest)).2.input.length := hafter.2.2.2.2
        rw [List.length_append, List.length_cons, List.take_succ_cons, List.flatten_cons, List.length_append]
        omega
      · rw [← Bool.not_eq_true, admitted, requestIsInFlight_admitted, not_or]
        refine ⟨by simpa using hfresh other (List.mem_cons_of_mem _ hother), fun hsame => hdistinct.1 ?_⟩
        exact hsame ▸ List.mem_map_of_mem hother

/-- A read that meets the end of the stream with a frame held back drops it. -/
theorem loses_drops {s : Step} (hloses : Loses json t s) :
    ¬ Framed json stream (t.step json s) := by
  intro hframed
  cases s with
  | exchange x => exact hloses
  | read first second arrival =>
    cases arrival with
    | nothing => exact hloses
    | failed => exact hloses
    | bytes count =>
      obtain ⟨hopen, hclosing, hempty, hcloses, requests, last, hheld⟩ := hloses
      obtain ⟨hup, hroom, hrefuses, hmark, hlength⟩ :=
        held_dispatch hheld.decodes hheld.distinct hheld.fresh hheld.taken hheld.stopped hheld.window
      have hwindow : t.peer.delivery.pendingFull = false := by
        have hpending := hheld.window
        rw [ClientDelivery.pendingFull, decide_eq_false_iff_not]
        omega
      have hspace := hheld.space
      have hstep : t.step json (.read first second (.bytes count)) =
          { t with peer := (t.peer.dispatchBuffered json first).2, ending := some .closed } := by
        have hread : t.step json (.read first second (.bytes count)) = t.read json first second (.bytes count) := by
          simp [step, hopen, hclosing]
        rcases @Tcp.read_cases json t first second (.bytes count) with
          ⟨hfull, -⟩ | ⟨hdown, -⟩ | ⟨hfull, -⟩ | ⟨hover, -⟩ | ⟨-, -, -, heq⟩
        · rw [hwindow] at hfull
          cases hfull
        · rw [dispatchBuffered, hup] at hdown
          cases hdown
        · rw [dispatchBuffered, hroom] at hfull
          cases hfull
        · rw [dispatchBuffered] at hover
          omega
        · rw [hread, heq]
          simp only [receive, hempty, hcloses, if_true]
      rw [hstep] at hframed
      rcases hframed.closed rfl with hbad | hall
      · exact hrefuses hbad
      · obtain ⟨hframes, -, -⟩ := take_of_follows (follows_of_framed hframed)
        rw [hall, List.take_length] at hframes
        obtain ⟨f, rest, hinput, hframe⟩ := exists_frame (List.mem_append_left t.unread hmark)
        have hnone := List.self_eq_append_right.1 hframes
        dsimp only [dispatchBuffered] at hnone
        rw [hinput, frames_frame hframe] at hnone
        cases hnone

end Tcp
end LabRuntime.Server
