import LabRuntime.Server.View

/-! What each step of the reactor and of the owner does to each connection. -/

namespace LabRuntime.Server

/-- A message of connection `id`. -/
def Incoming.of (id : ℕ) : Incoming → Option (Option WireRequest)
  | .request i r => if i = id then some (some r) else none
  | .detach i => if i = id then some none else none

/-- A first reply of connection `id`. -/
def Outgoing.owes (id : ℕ) : Outgoing → Bool
  | .reply i _ consumed _ => i = id && consumed
  | _ => false

/-- The requests of one connection, in order. -/
def requestsOf (id : ℕ) (batch : List (ℕ × WireRequest)) : List WireRequest :=
  batch.filterMap fun e => if e.1 = id then some e.2 else none

theorem requestsOf_cons_self (id : ℕ) (r : WireRequest) (batch : List (ℕ × WireRequest)) :
    requestsOf id ((id, r) :: batch) = r :: requestsOf id batch := List.filterMap_cons_some (if_pos rfl)

theorem requestsOf_cons_ne {id i : ℕ} (h : i ≠ id) (r : WireRequest) (batch : List (ℕ × WireRequest)) :
    requestsOf id ((i, r) :: batch) = requestsOf id batch := List.filterMap_cons_none (if_neg h)

namespace OwnerAt

def batch : OwnerAt → List (ℕ × WireRequest)
  | .handling batch | .replying _ _ _ _ batch => batch
  | _ => []

/-- The first reply of connection `id` is in the owner's hand. -/
def owes (id : ℕ) : OwnerAt → ℕ
  | .replying i _ true (_ :: _) _ => if i = id then 1 else 0
  | _ => 0

/-- Connections this turn has selected, and no message is received until it is done with them. -/
def engaged : OwnerAt → List ℕ
  | .handling batch => batch.map (·.1)
  | .replying id _ _ _ batch => id :: batch.map (·.1)
  | .pumping ids => ids
  | .offering id _ ids => id :: ids
  | _ => []

def lateTo : OwnerAt → List ℕ
  | .late replies => replies.map (·.1)
  | _ => []

def closes : OwnerAt → List ℕ
  | .closing ids => ids
  | _ => []

end OwnerAt

namespace State

def view (s : State) (id : ℕ) : View where
  known := id ∈ s.accepted
  peer := s.peers.get id
  leaving := s.connections.pendingDetach.count id
  mail := s.incoming.filterMap (Incoming.of id)
  queue := s.delivery.queued.get id
  batch := requestsOf id s.at.batch
  owed := s.outgoing.countP (Outgoing.owes id) + s.at.owes id
  closing := s.delivery.closing.contains id
  ended := s.ended.count id
  detached := s.detached.count id
  sent := s.sent id
  admitted := s.admitted id
  handled := s.handled id

variable {s : State} {id i : ℕ}

/-! ### Parts of a step -/

theorem append_get {α : Type} (f : ℕ → List α) (i : ℕ) (xs : List α) (id : ℕ) :
    append f i xs id = if id = i then f id ++ xs else f id := by
  rw [append, Function.update_apply]
  split_ifs with h
  · rw [h]
  · rfl

theorem view_setPeer (p : Peer) :
    (s.setPeer i p).view id = if id = i then { s.view id with peer := some p } else s.view id := by
  have hget : (s.setPeer i p).peers.get id = if id = i then some p else s.peers.get id := s.peers.get_insert
  rw [view, hget]
  split_ifs <;> rfl

theorem view_lose (h : s.connections.active.contains i = true) :
    (s.lose i).view id =
      if id = i then { s.view id with peer := none, leaving := (s.view id).leaving + 1 } else s.view id := by
  have hpeers : (s.lose i).peers.get id = if id = i then none else s.peers.get id := s.peers.get_remove
  have hleaving : (s.lose i).connections.pendingDetach = s.connections.pendingDetach ++ [i] := by
    rw [lose, ConnectionCoordinator.beginDetach, if_pos h]
  rw [view, hpeers, hleaving, List.count_append]
  split_ifs with heq
  · rw [heq, List.count_singleton_self]
    rfl
  · rw [List.count_singleton, if_neg (by simpa using Ne.symm heq)]
    rfl

theorem view_offer (message : Outgoing) :
    (s.offer message).view id =
      { s.view id with owed := (s.view id).owed + if message.owes id then 1 else 0 } := by
  have howed : (s.offer message).outgoing.countP (Outgoing.owes id) =
      s.outgoing.countP (Outgoing.owes id) + if message.owes id then 1 else 0 := by
    rw [offer, List.countP_append, List.countP_singleton]
  rw [view, howed, Nat.add_right_comm]
  rfl

theorem view_goto (a : OwnerAt) :
    (s.goto a).view id =
      { s.view id with
        batch := requestsOf id a.batch
        owed := s.outgoing.countP (Outgoing.owes id) + a.owes id } := rfl

/-- Moving on to a place with the same batch and no other reply in hand. -/
theorem view_goto_same {a b : OwnerAt} (hat : s.at = a) (hbatch : b.batch = a.batch) (howes : b.owes id = a.owes id) :
    (s.goto b).view id = s.view id := by
  rw [view_goto, hbatch, howes, ← hat]
  rfl

theorem count_called (i id : ℕ) (closed : Bool) (l : List ℕ) :
    (if (!closed) = true then l ++ [i] else l).count id =
      if id = i then (if closed = true then l.count id else l.count id + 1) else l.count id := by
  by_cases heq : id = i
  · rw [if_pos heq, heq]
    cases closed with
    | false => exact (List.count_append ..).trans (by rw [List.count_singleton_self]; rfl)
    | true => rfl
  · rw [if_neg heq]
    cases closed with
    | false => exact (List.count_append ..).trans (by rw [List.count_singleton, if_neg (by simpa using Ne.symm heq), Nat.add_zero])
    | true => rfl

theorem view_beginClose :
    (s.beginClose i).view id =
      if id = i then
        { s.view id with
          queue := none, closing := true
          detached := if (s.view id).closing then (s.view id).detached else (s.view id).detached + 1 }
      else s.view id := by
  have hqueue : (s.beginClose i).delivery.queued.get id = if id = i then none else s.delivery.queued.get id :=
    s.delivery.queued.get_remove
  have hclosing : (s.beginClose i).delivery.closing.contains id = if id = i then true else s.delivery.closing.contains id :=
    OrderedMap.contains_insert _
  have hdetached : (s.beginClose i).detached.count id = _ :=
    count_called i id (s.delivery.closing.contains i) s.detached
  rw [view, hqueue, hclosing, hdetached]
  by_cases heq : id = i
  · subst heq
    simp only [if_true]
    rfl
  · simp only [if_neg heq]
    rfl

theorem view_networkDetached :
    (s.networkDetached i).view id =
      if id = i then
        { s.view id with
          queue := none, closing := false, ended := (s.view id).ended + 1
          detached := if (s.view id).closing then (s.view id).detached else (s.view id).detached + 1 }
      else s.view id := by
  have hqueue : (s.networkDetached i).delivery.queued.get id = if id = i then none else s.delivery.queued.get id :=
    s.delivery.queued.get_remove
  have hclosing : (s.networkDetached i).delivery.closing.contains id =
      if id = i then false else s.delivery.closing.contains id := OrderedMap.contains_remove _
  have hdetached : (s.networkDetached i).detached.count id = _ :=
    count_called i id (s.delivery.closing.contains i) s.detached
  have hended : (s.networkDetached i).ended.count id = s.ended.count id + if id = i then 1 else 0 := by
    refine (List.count_append ..).trans ?_
    rw [List.count_singleton]
    by_cases heq : id = i
    · rw [if_pos heq, if_pos (by simpa using heq.symm)]
    · rw [if_neg heq, if_neg (by simpa using Ne.symm heq)]
  rw [view, hqueue, hclosing, hdetached, hended]
  by_cases heq : id = i
  · subst heq
    simp only [if_true]
    rfl
  · simp only [if_neg heq]
    rfl

/-- The heads taken of each queue, and what is left of it. -/
theorem popEach_get (queued : OrderedMap ℕ (List WireRequest)) (ids : List ℕ) (id : ℕ) :
    (queued.get id = none → (popEach queued ids).2.get id = none ∧ requestsOf id (popEach queued ids).1 = []) ∧
      ∀ queue, queued.get id = some queue →
        ∃ rest, (popEach queued ids).2.get id = some rest ∧ queue = requestsOf id (popEach queued ids).1 ++ rest := by
  induction ids generalizing queued with
  | nil => exact ⟨fun h => ⟨h, rfl⟩, fun queue h => ⟨queue, h, rfl⟩⟩
  | cons i ids ih =>
    rw [popEach]
    split
    next request rest hi =>
      obtain ⟨ihnone, ihsome⟩ := ih (queued.insert i rest)
      by_cases heq : id = i
      · subst heq
        refine ⟨fun h => absurd (hi.symm.trans h) (Option.some_ne_none _), fun queue h => ?_⟩
        obtain ⟨left, hleft, hrest⟩ := ihsome rest (OrderedMap.get_insert_self _)
        refine ⟨left, hleft, ?_⟩
        obtain rfl : request :: rest = queue := Option.some.inj (hi.symm.trans h)
        show request :: rest = requestsOf id ((id, request) :: (popEach (queued.insert id rest) ids).1) ++ left
        rw [requestsOf_cons_self, List.cons_append, ← hrest]
      · have hget : (queued.insert i rest).get id = queued.get id := OrderedMap.get_insert_of_ne _ heq
        rw [hget] at ihnone ihsome
        have hskip : requestsOf id ((i, request) :: (popEach (queued.insert i rest) ids).1) =
            requestsOf id (popEach (queued.insert i rest) ids).1 := requestsOf_cons_ne (Ne.symm heq) ..
        simp only [hskip]
        exact ⟨ihnone, ihsome⟩
    next => exact ih queued

/-- A request is taken only of a connection that has a queue. -/
theorem popEach_mem (queued : OrderedMap ℕ (List WireRequest)) (ids : List ℕ) :
    ∀ e ∈ (popEach queued ids).1, (queued.get e.1).isSome = true := by
  induction ids generalizing queued with
  | nil => exact nofun
  | cons i ids ih =>
    rw [popEach]
    split
    next request rest hi =>
      intro e he
      rcases List.mem_cons.1 he with rfl | he
      · rw [hi]
        rfl
      · have hsome := ih (queued.insert i rest) e he
        rw [OrderedMap.get_insert] at hsome
        split_ifs at hsome with heq
        · rw [heq, hi]
          rfl
        · exact hsome
    next => exact ih queued

theorem nextRequests_eq (o : OwnerDelivery) :
    ∃ turn, o.nextRequests.1 = (popEach o.queued turn).1 ∧ o.nextRequests.2.queued = (popEach o.queued turn).2 ∧
      o.nextRequests.2.closing = o.closing ∧ o.nextRequests.2.closeSent = o.closeSent := by
  rw [OwnerDelivery.nextRequests]
  by_cases hids : o.queued.keys = []
  · exact ⟨[], by rw [if_pos hids]; exact ⟨rfl, rfl, rfl, rfl⟩⟩
  · exact ⟨_, by rw [if_neg hids]; exact ⟨rfl, rfl, rfl, rfl⟩⟩

theorem select_moves (hbatch : s.at.batch = []) (howes : s.at.owes id = 0) : View.Moves (s.view id) (s.select.view id) := by
  obtain ⟨turn, hfirst, hqueued, hclosing, -⟩ := nextRequests_eq s.delivery
  have hview : s.select.view id =
      { s.view id with
        queue := (popEach s.delivery.queued turn).2.get id
        batch := requestsOf id (popEach s.delivery.queued turn).1 } := by
    rw [← hqueued, ← hfirst]
    simp only [view, howes]
    rw [← hclosing]
    rfl
  obtain ⟨hnone, hsome⟩ := popEach_get s.delivery.queued turn id
  have hempty : (s.view id).batch = [] := by
    show requestsOf id s.at.batch = []
    rw [hbatch]
    rfl
  rw [hview]
  cases hq : s.delivery.queued.get id with
  | none =>
    obtain ⟨hget, hlist⟩ := hnone hq
    rw [hget, hlist, ← hq, ← hempty]
    exact .refl
  | some queue =>
    obtain ⟨rest, hget, rfl⟩ := hsome queue hq
    rw [hget]
    exact .single (.select _ rest hq hempty)

end State

/-! ### Peers -/

namespace Peer

open View (Quiet)

variable {p : Peer}

theorem quiet_delivery {d : ClientDelivery} (hpending : d.pending = p.delivery.pending)
    (hclosed : p.delivery.closing = true → d.closing = true) : Quiet p { p with delivery := d } :=
  ⟨hpending, hclosed, fun _ => rfl, .inl⟩

theorem quiet_close : Quiet p { p with delivery := p.delivery.close } := quiet_delivery rfl fun _ => rfl

theorem quiet_stageRejection : Quiet p { p with delivery := p.delivery.stageRejection p.writing } := by
  refine quiet_delivery ?_ ?_ <;> rw [ClientDelivery.stageRejection] <;> split
  · split <;> rfl
  · rfl
  · split <;> exact id
  · exact id

theorem nextMessage_keeps (d : ClientDelivery) :
    d.nextMessage.2.pending = d.pending ∧ d.nextMessage.2.closing = d.closing := by
  rw [ClientDelivery.nextMessage]
  split <;> exact ⟨rfl, rfl⟩

theorem quiet_startWrite : Quiet p p.startWrite := by
  rw [startWrite]
  split
  · exact ⟨rfl, id, fun _ => rfl, .inl⟩
  · obtain ⟨hpending, hclosing⟩ := nextMessage_keeps p.delivery
    exact ⟨hpending, fun hc => hclosing.trans hc, fun _ => rfl, .inl⟩

theorem quiet_finishWrite : Quiet p p.finishWrite := by
  rw [finishWrite]
  split <;> exact ⟨rfl, id, fun _ => rfl, .inl⟩

theorem pushReply_some {d d' : ClientDelivery} {message : Message} {consumed hello : Bool} {writing : Option Bool}
    (h : d.pushReply message consumed hello writing = some d') :
    d'.pending = (if consumed then d.pending - 1 else d.pending) ∧ d'.closing = d.closing := by
  rw [ClientDelivery.pushReply] at h
  split_ifs at h with hfull <;> cases h <;> exact ⟨by simp_all, rfl⟩

theorem pushEvent_some {d d' : ClientDelivery} {message : Message} {writing : Option Bool}
    (h : d.pushEvent message writing = some d') : d'.pending = d.pending ∧ d'.closing = d.closing := by
  rw [ClientDelivery.pushEvent] at h
  split_ifs at h with hfull
  cases h
  exact ⟨rfl, rfl⟩

/-- A round sends nothing, or the first request it has not sent. -/
theorem dispatch_cases (p : Peer) (room : Bool) :
    (p.dispatch room).2 = none ∧ Quiet p (p.dispatch room).1 ∨
      ∃ r, (p.dispatch room).2 = some r ∧ (p.dispatch room).1.delivery.pending = p.delivery.pending + 1 ∧
        (p.stagedRequest.isSome ∨ p.delivery.pending < clientIn) ∧ (p.dispatch room).1.stagedRequest = none ∧
        p.unread = .request r :: (p.dispatch room).1.unread := by
  have hsame : Quiet p p := ⟨rfl, id, fun _ => rfl, .inl⟩
  have hrejected : ∀ rest message, Quiet p (p.reject rest message) := fun rest message =>
    ⟨rfl, fun _ => rfl, (fun hc => nomatch hc), .inl⟩
  rw [dispatch]
  cases hstaged : p.stagedRequest with
  | some r =>
    cases room with
    | false => exact .inl ⟨rfl, hsame⟩
    | true => exact .inr ⟨r, rfl, rfl, .inl rfl, rfl, by simp [unread, hstaged]⟩
  | none =>
    dsimp only
    by_cases hfull : p.delivery.pendingFull = true
    · rw [if_pos hfull]
      exact .inl ⟨rfl, hsame⟩
    rw [if_neg hfull]
    have hroom : p.delivery.pending < clientIn := by simpa [ClientDelivery.pendingFull] using hfull
    cases hinput : p.input with
    | nil => exact .inl ⟨rfl, hsame⟩
    | cons frame rest =>
      cases frame with
      | malformed msgId code => exact .inl ⟨rfl, hrejected ..⟩
      | request r =>
        dsimp only
        split_ifs with hflight hopen hws
        · exact .inl ⟨rfl, hrejected ..⟩
        · exact .inr ⟨r, rfl, rfl, .inr hroom, rfl, by simp [unread, hstaged, hinput]⟩
        · exact .inl ⟨rfl, rfl, id, fun _ => by simp [unread, hstaged, hinput], fun _ => .inr hroom⟩
        · exact .inl ⟨rfl, hsame⟩

end Peer

/-! ### The reactor -/

/-- What the owner may rely on where it stands. -/
structure Placed (s : State) (a : OwnerAt) : Prop where
  engaged : ∀ id ∈ a.engaged, id ∈ s.accepted ∧ id ∉ s.ended
  late : ∀ id ∈ a.lateTo, id ∈ s.accepted
  closes : ∀ id ∈ a.closes, s.delivery.closing.contains id = true

/-- Identities, the admission pool and the peers. -/
structure Registry (s : State) : Prop where
  fresh : ∀ id ∈ s.accepted, id < s.connections.nextId
  nodup : s.accepted.Nodup
  size : s.connections.active.size + s.connections.pendingDetach.length ≤ maxClients
  peers : s.up = true → ∀ id, s.connections.active.contains id = s.peers.contains id

/-- What ties the parts of the state together. -/
structure Coherent (s : State) : Prop extends Registry s where
  placed : Placed s s.at
  sound : ∀ id, (s.view id).Sound

namespace State

open View (Moves Move Quiet moves_of_eq moves_of_move)

variable {s : State} {id i : ℕ}

/-- Where the reactor runs, a peer it holds is active. -/
theorem active_of_peer (h : s.up = true → ∀ id, s.connections.active.contains id = s.peers.contains id)
    (hup : s.up = true) {p : Peer} (hp : s.peers.get i = some p) : s.connections.active.contains i = true := by
  rw [h hup, OrderedMap.contains, hp]
  rfl

theorem lose_moves (hactive : s.connections.active.contains i = true) {p : Peer} (hp : s.peers.get i = some p) :
    Moves (s.view id) ((s.lose i).view id) := by
  rw [view_lose hactive]
  split_ifs with heq
  · subst heq
    exact .single (.lose p hp)
  · exact .refl

theorem setPeer_moves {p p' : Peer} (hp : s.peers.get i = some p) (hq : Quiet p p') :
    Moves (s.view id) ((s.setPeer i p').view id) := by
  rw [view_setPeer]
  split_ifs with heq
  · subst heq
    exact .single (.quiet p p' hp hq)
  · exact .refl

theorem onPeer_moves {f : Peer → Peer} (hf : ∀ p, Quiet p (f p)) : Moves (s.view id) ((s.onPeer i f).view id) := by
  rw [onPeer]
  split
  · exact .refl
  next p hp => exact setPeer_moves hp (hf p)

theorem push_moves (hactive : ∀ p, s.peers.get i = some p → s.connections.active.contains i = true)
    {f : Peer → Option ClientDelivery} (hf : ∀ p d, f p = some d → Quiet p { p with delivery := d }) :
    Moves (s.view id) ((s.push i f).view id) := by
  rw [push]
  split
  · exact .refl
  next p hp =>
    split
    next d hd => exact setPeer_moves hp (hf p d hd)
    next => exact lose_moves (hactive p hp) hp

theorem push_other (hactive : ∀ p, s.peers.get i = some p → s.connections.active.contains i = true) (hne : id ≠ i)
    (f : Peer → Option ClientDelivery) : (s.push i f).view id = s.view id := by
  rw [push]
  split
  · rfl
  next p hp =>
    split
    · rw [view_setPeer, if_neg hne]
    · rw [view_lose (hactive p hp), if_neg hne]

/-- Taking a message from the outgoing mailbox, before it is delivered. -/
theorem view_tail {message : Outgoing} {rest : List Outgoing} (h : s.outgoing = message :: rest) :
    s.view id = { ({ s with outgoing := rest }).view id with
      owed := ({ s with outgoing := rest }.view id).owed + if message.owes id then 1 else 0 } := by
  have howed : s.outgoing.countP (Outgoing.owes id) =
      rest.countP (Outgoing.owes id) + if message.owes id then 1 else 0 := by rw [h, List.countP_cons]
  rw [view, howed, Nat.add_right_comm]
  rfl

theorem mail_detach (l : List Incoming) :
    (l ++ [Incoming.detach i]).filterMap (Incoming.of id) = l.filterMap (Incoming.of id) ++ if i = id then [none] else [] := by
  rw [List.filterMap_append]
  by_cases heq : i = id <;> simp [Incoming.of, heq]

theorem sendDetach_moves : Moves (s.view id) (s.sendDetach.view id) := by
  rw [sendDetach]
  split
  · exact .refl
  next i rest hpending =>
    split_ifs with hroom
    · by_cases heq : i = id
      · subst heq
        have hleaving : (s.view i).leaving = rest.count i + 1 := by
          show s.connections.pendingDetach.count i = _
          rw [hpending, List.count_cons_self]
        refine moves_of_move (Move.leave _ hleaving) ?_
        simp only [view, ConnectionCoordinator.detachDelivered, hpending, List.tail_cons, mail_detach, if_true]
      · refine moves_of_eq ?_
        simp only [view, ConnectionCoordinator.detachDelivered, hpending, List.tail_cons, mail_detach, if_neg heq,
          List.append_nil]
        rw [List.count_cons_of_ne heq]
    · exact .refl

/-- Without the reactor a connection has no peer, and only a reply in the owner's hand is owed. -/
theorem view_fail : s.fail.view id = { s.view id with peer := none, owed := s.at.owes id } := by
  have howed : s.fail.outgoing.countP (Outgoing.owes id) + s.fail.at.owes id = s.at.owes id := Nat.zero_add _
  rw [view, howed]
  rfl

theorem fail_moves : Moves (s.view id) (s.fail.view id) := by
  rw [view_fail]
  exact .single (.down _ (Nat.le_add_left ..))

/-- The last messages of the reactor: one `Detach` at most for each active connection. -/
theorem halt_mail (ids : List ℕ) (hids : ids.Nodup) (incoming : List Incoming) (id : ℕ) :
    (ids.foldl (fun incoming i => if incoming.length < mailboxCapacity then incoming ++ [.detach i] else incoming)
        incoming).filterMap (Incoming.of id) = incoming.filterMap (Incoming.of id) ∨
      id ∈ ids ∧
        (ids.foldl (fun incoming i => if incoming.length < mailboxCapacity then incoming ++ [.detach i] else incoming)
          incoming).filterMap (Incoming.of id) = incoming.filterMap (Incoming.of id) ++ [none] := by
  induction ids generalizing incoming with
  | nil => exact .inl rfl
  | cons i ids ih =>
    obtain ⟨hi, hids⟩ := List.nodup_cons.1 hids
    rw [List.foldl_cons]
    split_ifs with hroom
    · obtain heq | ⟨hmem, heq⟩ := ih hids (incoming ++ [.detach i])
      · rw [heq, mail_detach]
        by_cases hii : i = id
        · rw [if_pos hii]
          exact .inr ⟨hii ▸ List.mem_cons_self, rfl⟩
        · rw [if_neg hii, List.append_nil]
          exact .inl rfl
      · have hii : i ≠ id := fun hii => hi (hii ▸ hmem)
        rw [heq, mail_detach, if_neg hii, List.append_nil]
        exact .inr ⟨List.mem_cons_of_mem _ hmem, rfl⟩
    · exact (ih hids incoming).imp_right fun h => ⟨List.mem_cons_of_mem _ h.1, h.2⟩

theorem halt_moves (hpeers : ∀ id, s.connections.active.contains id = s.peers.contains id) :
    Moves (s.view id) (s.halt.view id) := by
  have hview : s.halt.view id =
      { s.view id with
        peer := none, owed := s.at.owes id
        mail := (s.connections.active.keys.foldl (fun incoming i =>
          if incoming.length < mailboxCapacity then incoming ++ [.detach i] else incoming) s.incoming).filterMap
            (Incoming.of id) } := view_fail
  have hdown : s.at.owes id ≤ (s.view id).owed := Nat.le_add_left ..
  obtain heq | ⟨hmem, heq⟩ := halt_mail s.connections.active.keys (OrderedMap.keys_nodup _) s.incoming id
  · rw [hview, heq]
    exact .single (.down _ hdown)
  · have hpeer : s.peers.contains id = true := by
      rw [← hpeers id]
      exact (OrderedMap.mem_keys _).1 hmem
    obtain ⟨p, hp⟩ := (OrderedMap.contains_iff _).1 hpeer
    rw [hview, heq]
    -- the connection leaves, its `Detach` is sent, and the mailbox of its replies is dropped
    exact ((Relation.ReflTransGen.single (Move.lose p hp)).tail (.leave _ rfl)).tail (.down _ hdown)

theorem accept_moves (hfresh : ∀ id ∈ s.accepted, id < s.connections.nextId) (websocket : Bool) :
    Moves (s.view id) ((s.accept websocket).view id) := by
  rw [accept]
  split_ifs with haccepting
  · split
    next new connections hadmit =>
      rw [ConnectionCoordinator.admitConnection] at hadmit
      split_ifs at hadmit with hfull hexhausted
      cases hadmit
      by_cases heq : id = s.connections.nextId
      · have hunknown : (s.view id).known = false := by
          simpa [view, heq] using fun hmem => lt_irrefl _ (hfresh _ hmem)
        refine moves_of_move (Move.accept websocket hunknown) ?_
        simp only [view, heq, OrderedMap.get_insert_self, List.mem_append, List.mem_singleton, or_true, decide_true]
      · refine moves_of_eq ?_
        simp only [view, OrderedMap.get_insert_of_ne _ heq, List.mem_append, List.mem_singleton, heq, or_false]
    next => exact .refl
    next => exact fail_moves
  · exact .refl

theorem arrive_moves (i : ℕ) (frame : Frame) : Moves (s.view id) ((s.arrive i frame).view id) := by
  rw [arrive]
  split
  · exact .refl
  next p hp =>
    by_cases heq : id = i
    · subst heq
      refine moves_of_move (Move.arrive (v := s.view id) p frame hp) ?_
      simp only [view, setPeer, OrderedMap.get_insert_self, append_get, if_true]
      rfl
    · refine moves_of_eq ?_
      simp only [view, setPeer, OrderedMap.get_insert_of_ne _ heq, append_get, if_neg heq]
      rfl

theorem dispatch_moves (i : ℕ) : Moves (s.view id) ((s.dispatch i).view id) := by
  rw [dispatch]
  split
  · exact .refl
  next p hp =>
    split_ifs with hclosing
    · exact .refl
    have hopen : p.delivery.closing = false := by simpa using hclosing
    dsimp only
    generalize decide (s.incoming.length < mailboxCapacity) = room
    have hmail : ∀ request : Option WireRequest,
        (s.incoming ++ request.toList.map (Incoming.request i)).filterMap (Incoming.of id) =
          s.incoming.filterMap (Incoming.of id) ++ if i = id then request.toList.map some else [] := by
      intro request
      rw [List.filterMap_append]
      by_cases heq : i = id <;> cases request <;> simp [Incoming.of, heq]
    by_cases heq : id = i
    · subst heq
      obtain ⟨hnone, hq⟩ | ⟨r, hsome, hpending, hroom, hstaged, hunread⟩ := p.dispatch_cases room
      · refine moves_of_move (Move.quiet (v := s.view id) p _ hp hq) ?_
        simp only [view, setPeer, OrderedMap.get_insert_self, append_get, hnone, if_true, Option.toList_none,
          List.map_nil, List.append_nil]
        rfl
      · refine moves_of_move (Move.submit (v := s.view id) p _ r hp hopen hpending hroom hstaged hunread) ?_
        simp only [view, setPeer, OrderedMap.get_insert_self, append_get, hsome, hmail (some r), if_true]
        rfl
    · refine moves_of_eq ?_
      simp only [view, setPeer, OrderedMap.get_insert_of_ne _ heq, append_get, hmail, if_neg heq, if_neg (Ne.symm heq),
        List.append_nil]
      rfl

theorem view_outgoing_same {message : Outgoing} {rest : List Outgoing} (h : s.outgoing = message :: rest)
    (howes : message.owes id = false) : ({ s with outgoing := rest }).view id = s.view id := by
  rw [view_tail h, howes]
  rfl

/-- A reply of which the reactor takes no account, an event or a close. -/
theorem push_tail_moves (hactive : ∀ p, s.peers.get i = some p → s.connections.active.contains i = true)
    {message : Outgoing} {rest : List Outgoing} (h : s.outgoing = message :: rest) (howes : message.owes id = false)
    {f : Peer → Option ClientDelivery} (hf : ∀ p d, f p = some d → Quiet p { p with delivery := d }) :
    Moves (s.view id) (({ s with outgoing := rest }.push i f).view id) := by
  rw [← view_outgoing_same h howes]
  exact push_moves (s := { s with outgoing := rest }) hactive hf

/-- A first reply, which the connection no longer owes. -/
theorem first_reply_moves (hactive : ∀ p, s.peers.get id = some p → s.connections.active.contains id = true)
    {message : Message} {hello : Bool} {rest : List Outgoing} (h : s.outgoing = .reply id message true hello :: rest) :
    Moves (s.view id) (({ s with outgoing := rest }.push id fun p =>
      p.delivery.pushReply message true hello p.writing).view id) := by
  have hview : s.view id = _ := view_tail h
  have howed : (s.view id).owed = ({ s with outgoing := rest }.view id).owed + 1 := by
    rw [hview]
    simp [Outgoing.owes]
  have htail : { s.view id with owed := ({ s with outgoing := rest }.view id).owed } = ({ s with outgoing := rest }).view id := by
    rw [hview]
  rw [push]
  split
  next hp =>
    rw [← htail]
    exact .single (.taken _ howed hp)
  next p hp =>
    split
    next d hd =>
      obtain ⟨hpending, hclosing⟩ := Peer.pushReply_some hd
      rw [view_setPeer, if_pos rfl, ← htail]
      exact .single (.pushed _ p _ howed hp hpending hclosing rfl rfl)
    next =>
      have hlose : ({ s with outgoing := rest }).connections.active.contains id = true := hactive p hp
      rw [view_lose hlose, if_pos rfl, ← htail]
      -- the peer is lost with its queue full, and the reply with it
      exact (Relation.ReflTransGen.single (Move.lose p hp)).tail (.taken _ howed rfl)

theorem take_moves (hactive : ∀ i p, s.peers.get i = some p → s.connections.active.contains i = true) :
    Moves (s.view id) (s.take.view id) := by
  rw [take]
  split
  · exact .refl
  next message rest h =>
    cases message with
    | stopAccept => exact moves_of_eq (view_outgoing_same h rfl)
    | close i =>
      refine push_tail_moves (hactive i) h rfl fun p d hd => ?_
      cases hd
      exact Peer.quiet_close
    | event i message =>
      refine push_tail_moves (hactive i) h rfl fun p d hd => ?_
      obtain ⟨hpending, hclosing⟩ := Peer.pushEvent_some hd
      exact Peer.quiet_delivery hpending fun hc => hclosing.trans hc
    | reply i message consumed hello =>
      by_cases howes : i = id ∧ consumed = true
      · obtain ⟨rfl, rfl⟩ := howes
        exact first_reply_moves (hactive i) h
      · have hother : Outgoing.owes id (.reply i message consumed hello) = false := by
          simpa [Outgoing.owes] using howes
        by_cases hconsumed : consumed = true
        · -- the first reply of another connection
          have hne : i ≠ id := fun heq => howes ⟨heq, hconsumed⟩
          rw [← view_outgoing_same h hother]
          exact moves_of_eq (push_other (s := { s with outgoing := rest }) (hactive i) (Ne.symm hne) _)
        · refine push_tail_moves (hactive i) h hother fun p d hd => ?_
          obtain ⟨hpending, hclosing⟩ := Peer.pushReply_some hd
          rw [if_neg hconsumed] at hpending
          exact Peer.quiet_delivery hpending fun hc => hclosing.trans hc

/-- Every step of the reactor is a few moves of each connection. -/
theorem react_moves (h : Coherent s) (step : ReactorStep) : Moves (s.view id) ((s.react step).view id) := by
  unfold react
  split_ifs with hup
  · have hactive : ∀ i p, s.peers.get i = some p → s.connections.active.contains i = true :=
      fun i p hp => active_of_peer h.peers hup hp
    cases step with
    | sendDetach => exact sendDetach_moves
    | accept websocket => exact accept_moves h.fresh websocket
    | take => exact take_moves hactive
    | arrive i frame => exact arrive_moves i frame
    | dispatch i => exact dispatch_moves i
    | shut i => exact onPeer_moves fun p => Peer.quiet_close
    | stageRejection i => exact onPeer_moves fun p => Peer.quiet_stageRejection
    | startWrite i => exact onPeer_moves fun p => Peer.quiet_startWrite
    | finishWrite i => exact onPeer_moves fun p => Peer.quiet_finishWrite
    | lose i =>
      dsimp only
      split_ifs with hpeer
      · obtain ⟨p, hp⟩ := (OrderedMap.contains_iff _).1 hpeer
        exact lose_moves (hactive i p hp) hp
      · exact .refl
    | halt => exact halt_moves (h.peers hup)
    | fail => exact fail_moves
  · exact .refl

end State

end LabRuntime.Server
