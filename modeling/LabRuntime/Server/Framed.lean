import LabRuntime.Server.Peers

/-! What one pass over the buffer of a TCP client hands over, and what it leaves. -/

namespace LabRuntime.Server

open Wire Framing

/-- The requests are the decodings of these frames, in order. -/
def Decodes (json : Json) (fs : List (List UInt8)) (requests : List Wire.WireRequest) : Prop :=
  fs.map (decodeNdjsonFrame json.serde) = requests.map .ok

theorem Decodes.length {json : Json} {fs : List (List UInt8)} {requests : List Wire.WireRequest}
    (h : Decodes json fs requests) : fs.length = requests.length := by
  simpa using congrArg List.length h

theorem Decodes.append {json : Json} {fs gs : List (List UInt8)} {rs ss : List Wire.WireRequest} (h : Decodes json fs rs)
    (h' : Decodes json gs ss) : Decodes json (fs ++ gs) (rs ++ ss) := by
  rw [Decodes, List.map_append, List.map_append, h, h']

namespace NdjsonPeer

variable {json : Json} {p : NdjsonPeer}

/-- The next frame of the buffer is malformed, or repeats an identity in flight. -/
def Refuses (json : Json) (p : NdjsonPeer) : Prop :=
  ∃ f rest, p.input = f ++ rest ∧ IsFrame lineFeed f ∧
    ∀ r, decodeNdjsonFrame json.serde f = .ok r → p.delivery.requestIsInFlight r.msgId = true

theorem Refuses.reject (h : p.Refuses json) (msgId : Option String) (code : String) : (p.reject msgId code).Refuses json := h

/-- One round: nothing to do, a rejection, or a frame for the mailbox. -/
theorem dispatch_round (answer : SendAnswer) (answers : List SendAnswer) :
    (dispatch json (answer :: answers) p = (true, p) ∧ (p.delivery.pendingFull = true ∨ lineFeed ∉ p.input)) ∨
    (p.Refuses json ∧ ∃ msgId code, dispatch json (answer :: answers) p = (true, p.reject msgId code)) ∨
    ∃ f rest r, p.input = f ++ rest ∧ IsFrame lineFeed f ∧ decodeNdjsonFrame json.serde f = .ok r ∧
      p.delivery.requestIsInFlight r.msgId = false ∧ p.delivery.pendingFull = false ∧
      dispatch json (answer :: answers) p = match answer with
        | .taken => dispatch json answers (p.admitted r rest)
        | .full => (true, p)
        | .disconnected => (false, p) := by
  rw [dispatch]
  split_ifs with hfull
  · exact .inl ⟨rfl, .inl hfull⟩
  split
  next hnone => exact .inl ⟨rfl, .inr (not_mem_of_findIdx? hnone)⟩
  next last hlast =>
    have hframe := isFrame_take hlast
    have hsplit := (List.take_append_drop (last + 1) p.input).symm
    split
    next error herror =>
      refine .inr (.inl ⟨⟨_, _, hsplit, hframe, fun r hr => ?_⟩, _, _, rfl⟩)
      rw [herror] at hr
      cases hr
    next r hr =>
      split_ifs with hflight
      · refine .inr (.inl ⟨⟨_, _, hsplit, hframe, fun r' hr' => ?_⟩, _, _, rfl⟩)
        rw [hr] at hr'
        cases hr'
        exact hflight
      · exact .inr (.inr ⟨_, _, r, hsplit, hframe, hr, by simpa using hflight, by simpa using hfull, rfl⟩)

/-- What a pass does to the peer: it hands these requests over, those of these frames. -/
structure Pass (json : Json) (p p' : NdjsonPeer) (fs : List (List UInt8)) (rs : List Wire.WireRequest) : Prop where
  input : p.input = fs.flatten ++ p'.input
  frames : ∀ f ∈ fs, IsFrame lineFeed f
  submitted : p'.submitted = p.submitted ++ rs
  decodes : Decodes json fs rs
  closing : p'.delivery.closing = p.delivery.closing ∨ p'.Refuses json
  pending : p'.delivery.pending = p.delivery.pending + rs.length
  fresh : (rs.map (·.msgId)).Nodup
  flight : ∀ id, p'.delivery.requestIsInFlight id = true ↔
    p.delivery.requestIsInFlight id = true ∨ id ∈ rs.map (·.msgId)
  new : ∀ r ∈ rs, p.delivery.requestIsInFlight r.msgId = false

theorem Pass.refl (json : Json) (p : NdjsonPeer) : Pass json p p [] [] :=
  ⟨rfl, by simp, by simp, rfl, .inl rfl, rfl, List.nodup_nil, by simp, by simp⟩

theorem Pass.reject (h : p.Refuses json) (msgId : Option String) (code : String) :
    Pass json p (p.reject msgId code) [] [] :=
  ⟨rfl, by simp, by simp [NdjsonPeer.reject], rfl, .inr (h.reject msgId code), rfl, List.nodup_nil,
    fun _ => ⟨.inl, fun hid => hid.elim id fun hmem => absurd hmem List.not_mem_nil⟩, by simp⟩

theorem requestIsInFlight_admitted {d : ClientDelivery} {msgId id : String} :
    (d.requestAdmitted msgId).requestIsInFlight id = true ↔ d.requestIsInFlight id = true ∨ id = msgId := by
  simp [ClientDelivery.requestAdmitted, ClientDelivery.requestIsInFlight, or_comm]

/-- A frame handed over goes before what the rest of the pass does. -/
theorem Pass.cons {p' : NdjsonPeer} {f rest : List UInt8} {fs : List (List UInt8)} {r : Wire.WireRequest}
    {rs : List Wire.WireRequest} (hinput : p.input = f ++ rest) (hframe : IsFrame lineFeed f)
    (hdecode : decodeNdjsonFrame json.serde f = .ok r) (hnew : p.delivery.requestIsInFlight r.msgId = false)
    (h : Pass json (p.admitted r rest) p' fs rs) : Pass json p p' (f :: fs) (r :: rs) := by
  have hother : ∀ r' ∈ rs, p.delivery.requestIsInFlight r'.msgId = false ∧ r'.msgId ≠ r.msgId := by
    intro r' hr'
    have hno := h.new r' hr'
    rw [← Bool.not_eq_true, admitted, requestIsInFlight_admitted, not_or] at hno
    exact ⟨by simpa using hno.1, hno.2⟩
  constructor
  · rw [hinput, List.flatten_cons, List.append_assoc, ← h.input]
    rfl
  · rintro g (_ | ⟨_, hg⟩)
    · exact hframe
    · exact h.frames g hg
  · rw [h.submitted, admitted, List.append_assoc, List.singleton_append]
  · exact (show Decodes json [f] [r] by simp [Decodes, hdecode]).append h.decodes
  · exact h.closing
  · rw [h.pending, List.length_cons]
    show p.delivery.pending + 1 + rs.length = _
    omega
  · rw [List.map_cons, List.nodup_cons]
    refine ⟨fun hmem => ?_, h.fresh⟩
    obtain ⟨r', hr', heq⟩ := List.mem_map.1 hmem
    exact (hother r' hr').2 heq
  · intro id
    rw [h.flight id, admitted, requestIsInFlight_admitted, List.map_cons, List.mem_cons, or_assoc]
  · rintro r' (_ | ⟨_, hr'⟩)
    · exact hnew
    · exact (hother r' hr').1

/-- Why a pass stops: the pending window is full, no frame is left, the next one is refused, or the
mailbox took every frame offered until one it had no room for. -/
theorem dispatch_pass (answers : List SendAnswer) (p : NdjsonPeer) :
    ∃ fs rs, Pass json p (dispatch json answers p).2 fs rs ∧
      ((dispatch json answers p).1 = true →
        (dispatch json answers p).2.delivery.pendingFull = true ∨ lineFeed ∉ (dispatch json answers p).2.input ∨
          (dispatch json answers p).2.Refuses json ∨
          ((∀ i, i < rs.length → answers[i]? = some .taken) ∧
            (answers[rs.length]? = none ∨ answers[rs.length]? = some .full))) := by
  induction answers generalizing p with
  | nil => exact ⟨[], [], Pass.refl json p, fun _ => .inr (.inr (.inr ⟨by simp, .inl rfl⟩))⟩
  | cons answer answers ih =>
    rcases @dispatch_round json p answer answers with
      ⟨heq, hstop⟩ | ⟨hrefuses, msgId, code, heq⟩ | ⟨f, rest, r, hinput, hframe, hdecode, hnew, hroom, heq⟩
    · rw [heq]
      exact ⟨[], [], Pass.refl json p, fun _ => hstop.elim .inl fun h => .inr (.inl h)⟩
    · rw [heq]
      exact ⟨[], [], Pass.reject hrefuses msgId code, fun _ => .inr (.inr (.inl (hrefuses.reject msgId code)))⟩
    · rw [heq]
      cases answer with
      | taken =>
        obtain ⟨fs, rs, hpass, hstop⟩ := ih (p.admitted r rest)
        refine ⟨f :: fs, r :: rs, hpass.cons hinput hframe hdecode hnew, fun hup => ?_⟩
        rcases hstop hup with hfull | hnone | hrefuses | ⟨htaken, hend⟩
        · exact .inl hfull
        · exact .inr (.inl hnone)
        · exact .inr (.inr (.inl hrefuses))
        · refine .inr (.inr (.inr ⟨fun i hi => ?_, hend⟩))
          cases i with
          | zero => rfl
          | succ i => exact htaken i (by simpa using hi)
      | full => exact ⟨[], [], Pass.refl json p, fun _ => .inr (.inr (.inr ⟨by simp, .inr rfl⟩))⟩
      | disconnected =>
        refine ⟨[], [], Pass.refl json p, fun h => ?_⟩
        cases h

end NdjsonPeer
end LabRuntime.Server
