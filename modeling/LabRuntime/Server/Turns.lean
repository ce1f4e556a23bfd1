import LabRuntime.Server.Steps

/-! What each step of the owner's turn does to each connection, and what ties the parts of the state
together along a run. -/

namespace LabRuntime.Server

namespace State

open View (Moves Move Stale moves_of_eq moves_of_move)

variable {s : State} {id i : ℕ}

/-! ### The owner -/

theorem beginClose_moves (hk : i ∈ s.accepted) (hended : i ∉ s.ended) : Moves (s.view id) ((s.beginClose i).view id) := by
  rw [view_beginClose]
  by_cases heq : id = i
  · subst heq
    rw [if_pos rfl]
    exact .single (.close (decide_eq_true hk) (List.count_eq_zero.2 hended))
  · rw [if_neg heq]

/-- A message that is no first reply changes no account. -/
theorem view_offer_same {message : Outgoing} (howes : message.owes id = false) : (s.offer message).view id = s.view id := by
  rw [view_offer, howes]
  rfl

theorem receive_moves (left : ℕ) (hat : s.at = .receiving (left + 1)) : Moves (s.view id) ((s.receive left).view id) := by
  rw [receive]
  split
  · exact select_moves (by rw [hat]; rfl) (by rw [hat]; rfl)
  next i r incoming hincoming =>
    have hview : ({ s with incoming, delivery := s.delivery.admitRequest i r, «at» := .receiving left } : State).view id =
        { s.view id with
          mail := incoming.filterMap (Incoming.of id)
          queue := (s.delivery.admitRequest i r).queued.get id
          closing := (s.delivery.admitRequest i r).closing.contains id } := by
      simp only [view, hat]
      rfl
    rw [hview]
    by_cases heq : i = id
    · subst heq
      have hmail : (s.view i).mail = some r :: incoming.filterMap (Incoming.of i) := by
        show s.incoming.filterMap _ = _
        rw [hincoming]
        exact List.filterMap_cons_some (if_pos rfl)
      rw [OwnerDelivery.admitRequest]
      split_ifs with hclosing
      · exact .single (.discard r _ hmail hclosing)
      · have hopen : (s.view i).closing = false := Bool.eq_false_iff.2 hclosing
        refine moves_of_move (Move.receive r _ hmail hopen) ?_
        dsimp only
        rw [OrderedMap.get_insert_self]
        rfl
    · have hmail : s.incoming.filterMap (Incoming.of id) = incoming.filterMap (Incoming.of id) := by
        rw [hincoming]
        exact List.filterMap_cons_none (if_neg heq)
      rw [← hmail, OwnerDelivery.admitRequest]
      split_ifs with hclosing
      · exact .refl
      · dsimp only
        rw [OrderedMap.get_insert_of_ne _ (Ne.symm heq)]
        exact .refl
  next i incoming hincoming =>
    have hview : ({ s with incoming, «at» := .receiving left } : State).view id =
        { s.view id with mail := incoming.filterMap (Incoming.of id) } := by
      simp only [view, hat]
      rfl
    rw [view_networkDetached, hview]
    by_cases heq : i = id
    · subst heq
      have hmail : (s.view i).mail = none :: incoming.filterMap (Incoming.of i) := by
        show s.incoming.filterMap _ = _
        rw [hincoming]
        exact List.filterMap_cons_some (if_pos rfl)
      rw [if_pos rfl]
      exact .single (.detach _ hmail (by show requestsOf i s.at.batch = []; rw [hat]; rfl))
    · have hmail : s.incoming.filterMap (Incoming.of id) = incoming.filterMap (Incoming.of id) := by
        rw [hincoming]
        exact List.filterMap_cons_none (if_neg heq)
      rw [if_neg (Ne.symm heq), ← hmail]
      exact .refl

theorem handle_moves {r : WireRequest} {batch : List (ℕ × WireRequest)} (hat : s.at = .handling ((i, r) :: batch))
    (hello : Bool) (message : Message) (replies : List Message) :
    Moves (s.view id)
      (({ s with handled := append s.handled i [r] }.goto (.replying i hello true (message :: replies) batch)).view id) := by
  have hview : ({ s with handled := append s.handled i [r] }.goto (.replying i hello true (message :: replies) batch)).view id =
      { s.view id with
        batch := requestsOf id batch
        handled := if id = i then (s.view id).handled ++ [r] else (s.view id).handled
        owed := (s.view id).owed + if i = id then 1 else 0 } := by
    simp only [view, goto, append_get, hat]
    rfl
  rw [hview]
  by_cases heq : i = id
  · subst heq
    rw [if_pos rfl, if_pos rfl]
    exact .single (.handle r _ (by show requestsOf i s.at.batch = _; rw [hat]; exact requestsOf_cons_self ..))
  · rw [if_neg heq, if_neg (Ne.symm heq)]
    refine moves_of_eq ?_
    have hbatch : requestsOf id batch = (s.view id).batch := by
      show _ = requestsOf id s.at.batch
      rw [hat]
      exact (requestsOf_cons_ne heq ..).symm
    rw [hbatch]
    rfl

/-- A reply of the batch, offered or refused. -/
theorem reply_moves {hello first : Bool} {message : Message} {replies : List Message} {batch : List (ℕ × WireRequest)}
    (hat : s.at = .replying i hello first (message :: replies) batch) (hk : i ∈ s.accepted) (hended : i ∉ s.ended)
    (flag : Bool) (id : ℕ) :
    Moves (s.view id) (((s.beginClose i).goto (.handling batch)).view id) ∧
      ((s.offer (.reply i message first flag)).goto (.replying i hello false replies batch)).view id = s.view id := by
  have hbatch : (s.view id).batch = requestsOf id batch := by
    show requestsOf id s.at.batch = _
    rw [hat]
    rfl
  have howed : (s.view id).owed = s.outgoing.countP (Outgoing.owes id) + if first = true ∧ i = id then 1 else 0 := by
    show _ + s.at.owes id = _
    rw [hat]
    cases first with
    | false => rfl
    | true => simp [OwnerAt.owes]
  refine ⟨?_, ?_⟩
  · refine (beginClose_moves hk hended).trans ?_
    rw [view_goto]
    by_cases heq : id = i
    · subst heq
      have hclosing : ((s.beginClose id).view id).closing = true := by
        rw [view_beginClose, if_pos rfl]
      have hkeep : requestsOf id batch = ((s.beginClose id).view id).batch := by
        rw [view_beginClose, if_pos rfl, ← hbatch]
      show Moves _ { (s.beginClose id).view id with batch := requestsOf id batch, owed := _ }
      rw [hkeep]
      exact .single (.unsaid _ hclosing (Nat.le_add_right ..))
    · refine moves_of_eq ?_
      rw [view_beginClose, if_neg heq]
      show ({ s.view id with batch := requestsOf id batch, owed := s.outgoing.countP (Outgoing.owes id) + 0 } : View) = _
      have hsame : s.outgoing.countP (Outgoing.owes id) + 0 = (s.view id).owed := by
        rw [howed, if_neg fun h => heq h.2.symm]
      rw [hsame, ← hbatch]
  · rw [view_goto]
    have hcount : (s.offer (.reply i message first flag)).outgoing.countP (Outgoing.owes id) +
        OwnerAt.owes id (.replying i hello false replies batch) = (s.view id).owed := by
      show (s.outgoing ++ [_]).countP _ + 0 = _
      rw [List.countP_append, howed, List.countP_singleton]
      cases first <;> simp [Outgoing.owes]
    rw [view_offer, hcount]
    show ({ s.view id with batch := requestsOf id batch, owed := (s.view id).owed } : View) = _
    rw [← hbatch]

/-- An event, offered or refused, after the connection was closed where the event tells of a gap. -/
theorem event_moves {event : Message} {events : List Message} {ids : List ℕ}
    (hat : s.at = .offering i (event :: events) ids) (hk : i ∈ s.accepted) (hended : i ∉ s.ended) (answers : Answers) :
    Moves (s.view id) ((s.own answers).view id) := by
  have hown : ∀ t : State, t.at = s.at → i ∈ t.accepted → i ∉ t.ended →
      Moves (t.view id) ((if t.refuses then (t.beginClose i).goto (.pumping ids)
        else (t.offer (.event i event)).goto (if isGap event then .pumping ids else .offering i events ids)).view id) := by
    intro t hsame hk hended
    rw [hat] at hsame
    split_ifs with hrefuses hgap
    · rw [view_goto_same (s := t.beginClose i) hsame (by rfl) (by rfl)]
      exact beginClose_moves hk hended
    all_goals
      rw [view_goto_same (s := t.offer _) hsame (by rfl) (by rfl), view_offer_same rfl]
  unfold own
  rw [hat]
  dsimp only
  by_cases hgap : isGap event = true
  · rw [if_pos hgap]
    exact (beginClose_moves hk hended).trans (hown (s.beginClose i) rfl hk hended)
  · rw [if_neg hgap]
    exact hown s rfl hk hended

/-- Every step of the owner is a few moves of each connection, unless it is a stale refusal. -/
theorem own_moves (h : Coherent s) (answers : Answers) :
    Moves (s.view id) ((s.own answers).view id) ∨
      StaleRefused s (.owner answers) ∧ Stale (s.view id) ((s.own answers).view id) := by
  have hplaced := h.placed
  cases hat : s.at with
  | late replies =>
    rw [hat] at hplaced
    cases replies with
    | nil =>
      unfold own
      rw [hat]
      exact .inl (moves_of_eq (view_goto_same hat rfl rfl))
    | cons reply replies =>
      obtain ⟨i, message⟩ := reply
      have hk : i ∈ s.accepted := hplaced.late i List.mem_cons_self
      unfold own
      rw [hat]
      dsimp only
      split_ifs with hrefuses
      · rw [view_goto_same (s := s.beginClose i) hat (by rfl) (by rfl)]
        by_cases hended : i ∈ s.ended
        · rw [view_beginClose]
          by_cases heq : id = i
          · subst heq
            rw [if_pos rfl]
            have hstale : s.staleReply = true := by
              rw [staleReply, hat]
              simp [hended, hrefuses]
            exact .inr ⟨hstale, decide_eq_true hk, fun hzero => List.count_eq_zero.1 hzero hended, rfl⟩
          · rw [if_neg heq]
            exact .inl .refl
        · exact .inl (beginClose_moves hk hended)
      · rw [view_goto_same (s := s.offer _) hat (by rfl) (by rfl), view_offer_same (by simp [Outgoing.owes])]
        exact .inl .refl
  | polling =>
    unfold own
    rw [hat]
    dsimp only
    split_ifs
    · exact .inl (moves_of_eq (view_goto_same hat rfl rfl))
    · exact .inl .refl
  | receiving left =>
    unfold own
    rw [hat]
    cases left with
    | zero => exact .inl (select_moves (by rw [hat]; rfl) (by rw [hat]; rfl))
    | succ left => exact .inl (receive_moves left hat)
  | handling batch =>
    unfold own
    rw [hat]
    cases batch with
    | nil => exact .inl (moves_of_eq (view_goto_same hat rfl rfl))
    | cons e batch => exact .inl (handle_moves hat _ _ _)
  | replying i hello first replies batch =>
    rw [hat] at hplaced
    obtain ⟨hk, hended⟩ := hplaced.engaged i List.mem_cons_self
    unfold own
    rw [hat]
    cases replies with
    | nil => exact .inl (moves_of_eq (view_goto_same hat rfl (by cases first <;> rfl)))
    | cons message replies =>
      obtain ⟨hrefused, hoffered⟩ := reply_moves hat hk hended (hello && message.type = some "result") id
      dsimp only
      split_ifs
      · exact .inl hrefused
      · exact .inl (moves_of_eq hoffered)
  | pumping ids =>
    unfold own
    rw [hat]
    cases ids <;> exact .inl (moves_of_eq (view_goto_same hat rfl rfl))
  | offering i events ids =>
    rw [hat] at hplaced
    obtain ⟨hk, hended⟩ := hplaced.engaged i List.mem_cons_self
    cases events with
    | nil =>
      unfold own
      rw [hat]
      exact .inl (moves_of_eq (view_goto_same hat rfl rfl))
    | cons event events => exact .inl (event_moves hat hk hended answers)
  | closing ids =>
    rw [hat] at hplaced
    unfold own
    rw [hat]
    cases ids with
    | nil => exact .inl (moves_of_eq (view_goto_same hat rfl rfl))
    | cons i ids =>
      dsimp only
      split_ifs
      · exact .inl (moves_of_eq (view_goto_same hat rfl rfl))
      · have hclosing := hplaced.closes i List.mem_cons_self
        have hview : ({ s.offer (.close i) with delivery := s.delivery.closeWasSent i } : State).view id =
            { s.view id with queue := if id = i then none else s.delivery.queued.get id } := by
          have hoffer : (s.offer (.close i)).view id = s.view id := view_offer_same rfl
          rw [← hoffer]
          exact congrArg (fun queue => ({ (s.offer (.close i)).view id with queue } : View)) (OrderedMap.get_remove _)
        rw [view_goto_same (s := { s.offer (.close i) with delivery := s.delivery.closeWasSent i }) hat (by rfl) (by rfl), hview]
        split_ifs with heq
        · subst heq
          exact .inl (.single (.closeSent hclosing))
        · exact .inl .refl
  | stopping =>
    unfold own
    rw [hat]
    dsimp only
    split_ifs
    · have hoffer : (s.offer .stopAccept).view id = s.view id := view_offer_same rfl
      rw [view_goto_same (s := { s.offer .stopAccept with acceptStopSent := true }) hat (by rfl) (by rfl)]
      exact .inl (moves_of_eq hoffer)
    · exact .inl (moves_of_eq (view_goto_same hat rfl rfl))
  | finishing replies =>
    unfold own
    rw [hat]
    cases replies with
    | nil => exact .inl (moves_of_eq (view_goto_same hat rfl rfl))
    | cons reply replies =>
      dsimp only
      split_ifs
      · exact .inl (moves_of_eq (view_goto_same hat rfl rfl))
      · rw [view_goto_same (s := s.offer _) hat (by rfl) (by rfl), view_offer_same (by simp [Outgoing.owes])]
        exact .inl .refl

end State

end LabRuntime.Server
