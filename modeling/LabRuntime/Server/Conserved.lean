import LabRuntime.Server.Turns

/-! Connections and requests along a run of the reactor and the owner. -/

namespace LabRuntime.Server

namespace Registry

variable {s : State} {i : ℕ}

theorem setPeer (h : Registry s) {p p' : Peer} (hp : s.peers.get i = some p) : Registry (s.setPeer i p') := by
  refine ⟨h.fresh, h.nodup, h.size, fun hup id => (h.peers hup id).trans ?_⟩
  show _ = (s.peers.insert i p').contains id
  rw [OrderedMap.contains_insert]
  split_ifs with heq
  · rw [heq, OrderedMap.contains, hp]
    rfl
  · rfl

theorem active (h : Registry s) (hup : s.up = true) {p : Peer} (hp : s.peers.get i = some p) :
    ∃ u, s.connections.active.get i = some u := by
  refine (OrderedMap.contains_iff _).1 ?_
  rw [h.peers hup i, OrderedMap.contains, hp]
  rfl

theorem lose (h : Registry s) (hup : s.up = true) {p : Peer} (hp : s.peers.get i = some p) : Registry (s.lose i) := by
  obtain ⟨u, hu⟩ := h.active hup hp
  have hcontains : s.connections.active.contains i = true := (OrderedMap.contains_iff _).2 ⟨u, hu⟩
  have hconnections : (s.lose i).connections =
      { s.connections with
        active := s.connections.active.remove i
        pendingDetach := s.connections.pendingDetach ++ [i] } := by
    rw [State.lose, ConnectionCoordinator.beginDetach, if_pos hcontains]
  have hsize := s.connections.active.size_remove_of_get hu
  refine ⟨?_, h.nodup, ?_, fun _ id => ?_⟩ <;> rw [hconnections]
  · exact h.fresh
  · have hbound := h.size
    simp only [List.length_append, List.length_singleton]
    omega
  · show _ = (s.peers.remove i).contains id
    rw [OrderedMap.contains_remove, OrderedMap.contains_remove, h.peers hup id]

theorem push (h : Registry s) (hup : s.up = true) (f : Peer → Option ClientDelivery) : Registry (s.push i f) := by
  rw [State.push]
  split
  · exact h
  next p hp =>
    split
    · exact h.setPeer hp
    · exact h.lose hup hp

theorem onPeer (h : Registry s) (f : Peer → Peer) : Registry (s.onPeer i f) := by
  rw [State.onPeer]
  split
  · exact h
  next p hp => exact h.setPeer hp

theorem take (h : Registry s) (hup : s.up = true) : Registry s.take := by
  rw [State.take]
  split
  · exact h
  next message rest hout =>
    have htail : Registry { s with outgoing := rest } := ⟨h.fresh, h.nodup, h.size, h.peers⟩
    cases message with
    | stopAccept => exact ⟨h.fresh, h.nodup, h.size, h.peers⟩
    | close i | event i _ | reply i _ _ _ =>
      unfold State.deliver
      exact htail.push hup _

theorem sendDetach (h : Registry s) : Registry s.sendDetach := by
  rw [State.sendDetach]
  split
  · exact h
  next i rest hpending =>
    split_ifs
    · have hsize := h.size
      rw [hpending, List.length_cons] at hsize
      refine ⟨h.fresh, h.nodup, ?_, h.peers⟩
      show s.connections.active.size + s.connections.pendingDetach.tail.length ≤ maxClients
      rw [hpending, List.tail_cons]
      omega
    · exact h

theorem fail (h : Registry s) : Registry s.fail := ⟨h.fresh, h.nodup, h.size, fun hup => nomatch hup⟩

theorem accept (h : Registry s) (hup : s.up = true) (websocket : Bool) : Registry (s.accept websocket) := by
  rw [State.accept]
  split_ifs
  · split
    next new connections hadmit =>
      rw [ConnectionCoordinator.admitConnection] at hadmit
      split_ifs at hadmit with hfull hexhausted
      cases hadmit
      have hunused : s.connections.nextId ∉ s.accepted := fun hmem => lt_irrefl _ (h.fresh _ hmem)
      refine ⟨fun id hid => ?_, ?_, ?_, fun _ id => ?_⟩
      · show id < s.connections.nextId + 1
        rcases List.mem_append.1 hid with hid | hid
        · exact (h.fresh id hid).trans (Nat.lt_succ_self _)
        · rw [List.mem_singleton.1 hid]
          exact Nat.lt_succ_self _
      · exact List.nodup_append.2 ⟨h.nodup, List.nodup_singleton _, fun a ha b hb heq =>
          hunused (List.mem_singleton.1 hb ▸ heq ▸ ha)⟩
      · have hroom : s.connections.active.size + s.connections.pendingDetach.length < maxClients := by
          simpa [ConnectionCoordinator.capacityFull] using hfull
        have hinsert : (s.connections.active.insert s.connections.nextId ()).size ≤ s.connections.active.size + 1 := by
          cases hget : s.connections.active.get s.connections.nextId with
          | none => exact (OrderedMap.size_insert_of_none _ _ hget).le
          | some u =>
            rw [OrderedMap.insert_get _ hget]
            exact Nat.le_succ _
        show (s.connections.active.insert s.connections.nextId ()).size + s.connections.pendingDetach.length ≤ maxClients
        omega
      · show (s.connections.active.insert s.connections.nextId ()).contains id = (s.peers.insert _ _).contains id
        rw [OrderedMap.contains_insert, OrderedMap.contains_insert, h.peers hup id]
    · exact h
    · exact h.fail
  · exact h

theorem react (h : Registry s) (step : State.ReactorStep) : Registry (s.react step) := by
  unfold State.react
  split_ifs with hup
  · cases step with
    | sendDetach => exact h.sendDetach
    | accept websocket => exact h.accept hup websocket
    | take => exact h.take hup
    | arrive i frame =>
      dsimp only
      rw [State.arrive]
      split
      · exact h
      next p hp =>
        have hset : Registry (s.setPeer i { p with input := p.input ++ [frame] }) := h.setPeer hp
        exact ⟨hset.fresh, hset.nodup, hset.size, hset.peers⟩
    | dispatch i =>
      dsimp only
      rw [State.dispatch]
      split
      · exact h
      next p hp =>
        split_ifs
        · exact h
        · have hset : Registry (s.setPeer i (p.dispatch (s.incoming.length < mailboxCapacity)).1) := h.setPeer hp
          exact ⟨hset.fresh, hset.nodup, hset.size, hset.peers⟩
    | shut i | stageRejection i | startWrite i | finishWrite i => exact h.onPeer _
    | lose i =>
      dsimp only
      split_ifs with hpeer
      · obtain ⟨p, hp⟩ := (OrderedMap.contains_iff _).1 hpeer
        exact h.lose hup hp
      · exact h
    | halt => exact ⟨h.fresh, h.nodup, h.size, fun hup => by cases hup⟩
    | fail => exact h.fail
  · exact h

end Registry

/-! ### Where the owner stands -/

namespace State

/-- The reactor leaves the owner's side alone. -/
theorem react_owner (s : State) (step : ReactorStep) :
    (s.react step).at = s.at ∧ (s.react step).ended = s.ended ∧ (s.react step).delivery = s.delivery ∧
      ∀ id ∈ s.accepted, id ∈ (s.react step).accepted := by
  have hpush : ∀ (t : State) i f, (t.push i f).at = t.at ∧ (t.push i f).ended = t.ended ∧
      (t.push i f).delivery = t.delivery ∧ ∀ id ∈ t.accepted, id ∈ (t.push i f).accepted := by
    intro t i f
    rw [push]
    split
    · exact ⟨rfl, rfl, rfl, fun _ => id⟩
    · split <;> exact ⟨rfl, rfl, rfl, fun _ => id⟩
  have honPeer : ∀ i f, (s.onPeer i f).at = s.at ∧ (s.onPeer i f).ended = s.ended ∧
      (s.onPeer i f).delivery = s.delivery ∧ ∀ id ∈ s.accepted, id ∈ (s.onPeer i f).accepted := by
    intro i f
    rw [onPeer]
    split <;> exact ⟨rfl, rfl, rfl, fun _ => id⟩
  unfold react
  split_ifs
  · cases step with
    | sendDetach =>
      dsimp only
      rw [sendDetach]
      split
      · exact ⟨rfl, rfl, rfl, fun _ => id⟩
      · split_ifs <;> exact ⟨rfl, rfl, rfl, fun _ => id⟩
    | accept websocket =>
      dsimp only
      rw [accept]
      split_ifs
      · split
        · exact ⟨rfl, rfl, rfl, fun id hid => List.mem_append_left _ hid⟩
        · exact ⟨rfl, rfl, rfl, fun _ => id⟩
        · exact ⟨rfl, rfl, rfl, fun _ => id⟩
      · exact ⟨rfl, rfl, rfl, fun _ => id⟩
    | take =>
      dsimp only
      rw [take]
      split
      · exact ⟨rfl, rfl, rfl, fun _ => id⟩
      next message rest hout =>
        cases message with
        | stopAccept => exact ⟨rfl, rfl, rfl, fun _ => id⟩
        | close i | event i _ | reply i _ _ _ => exact hpush { s with outgoing := rest } i _
    | arrive i frame =>
      dsimp only
      rw [arrive]
      split <;> exact ⟨rfl, rfl, rfl, fun _ => id⟩
    | dispatch i =>
      dsimp only
      rw [dispatch]
      split
      · exact ⟨rfl, rfl, rfl, fun _ => id⟩
      · split_ifs <;> exact ⟨rfl, rfl, rfl, fun _ => id⟩
    | shut i | stageRejection i | startWrite i | finishWrite i => exact honPeer i _
    | lose i =>
      dsimp only
      split_ifs <;> exact ⟨rfl, rfl, rfl, fun _ => id⟩
    | halt | fail => exact ⟨rfl, rfl, rfl, fun _ => id⟩
  · exact ⟨rfl, rfl, rfl, fun _ => id⟩

/-- The owner leaves the reactor's side alone. -/
theorem own_reactor (s : State) (answers : Answers) :
    (s.own answers).connections = s.connections ∧ (s.own answers).peers = s.peers ∧ (s.own answers).up = s.up ∧
      (s.own answers).accepted = s.accepted := by
  unfold own
  split
  case h_5 left _ =>
    rw [receive]
    split <;> exact ⟨rfl, rfl, rfl, rfl⟩
  case h_13 =>
    dsimp only
    split_ifs <;> exact ⟨rfl, rfl, rfl, rfl⟩
  all_goals first
    | exact ⟨rfl, rfl, rfl, rfl⟩
    | split_ifs <;> exact ⟨rfl, rfl, rfl, rfl⟩

end State

namespace Placed

variable {s t : State} {a : OwnerAt}

theorem mono (h : Placed s a) (haccepted : ∀ id ∈ s.accepted, id ∈ t.accepted) (hended : t.ended = s.ended)
    (hclosing : ∀ id, s.delivery.closing.contains id = true → t.delivery.closing.contains id = true) : Placed t a :=
  ⟨fun id hid => ⟨haccepted id (h.engaged id hid).1, hended ▸ (h.engaged id hid).2⟩,
    fun id hid => haccepted id (h.late id hid), fun id hid => hclosing id (h.closes id hid)⟩

/-- A place that names no connection. -/
theorem idle (hengaged : a.engaged = []) (hlate : a.lateTo = []) (hcloses : a.closes = []) : Placed s a :=
  ⟨by simp [hengaged], by simp [hlate], by simp [hcloses]⟩

/-- A place of the same turn that names fewer connections. -/
theorem fewer {b : OwnerAt} (h : Placed s b) (hengaged : ∀ id ∈ a.engaged, id ∈ b.engaged) (hlate : a.lateTo = [])
    (hcloses : a.closes = []) : Placed s a :=
  ⟨fun id hid => h.engaged id (hengaged id hid), by simp [hlate], by simp [hcloses]⟩

theorem beginClose (h : Placed s a) (i : ℕ) : Placed (s.beginClose i) a := by
  refine h.mono (fun _ => id) rfl fun id hid => ?_
  show (s.delivery.closing.insert i ()).contains id = true
  rw [OrderedMap.contains_insert, hid]
  split_ifs <;> rfl

/-- A connection with a queue is known and has not ended. -/
theorem of_queue (h : ∀ id, (s.view id).Sound) {id : ℕ} (hq : (s.delivery.queued.get id).isSome = true) :
    id ∈ s.accepted ∧ id ∉ s.ended := by
  have hqueue : (s.view id).queue ≠ none := fun hnone => by
    rw [show s.delivery.queued.get id = none from hnone] at hq
    cases hq
  have hknown : (s.view id).known = true := (h id).known (by
    intro heq
    rw [heq] at hqueue
    exact hqueue rfl)
  refine ⟨of_decide_eq_true hknown, fun hmem => hqueue ((h id).ceased ?_).2.1⟩
  exact fun hzero => List.count_eq_zero.1 hzero hmem

theorem select (h : ∀ id, (s.view id).Sound) : Placed s.select s.select.at := by
  obtain ⟨turn, hfirst, -, -, -⟩ := State.nextRequests_eq s.delivery
  refine ⟨fun id hid => ?_, nofun, nofun⟩
  obtain ⟨e, he, rfl⟩ := List.mem_map.1 (show id ∈ s.delivery.nextRequests.1.map (·.1) from hid)
  rw [hfirst] at he
  exact of_queue h (State.popEach_mem _ _ e he)

theorem receive (h : ∀ id, (s.view id).Sound) (left : ℕ) : Placed (s.receive left) (s.receive left).at := by
  rw [State.receive]
  split
  · exact select h
  · exact idle rfl rfl rfl
  · exact idle rfl rfl rfl

theorem goto (h : Placed s a) : Placed (s.goto a) (s.goto a).at := h.mono (fun _ h => h) rfl fun _ h => h

theorem offer (h : Placed s a) (message : Outgoing) : Placed ((s.offer message).goto a) ((s.offer message).goto a).at :=
  h.mono (fun _ h => h) rfl fun _ h => h

theorem own (h : Coherent s) (answers : State.Answers) : Placed (s.own answers) (s.own answers).at := by
  have hplaced := h.placed
  unfold State.own
  split <;> rename_i hat <;> rw [hat] at hplaced
  next =>
    split_ifs with hlate
    · refine ⟨nofun, fun id hid => ?_, nofun⟩
      obtain ⟨reply, hreply, rfl⟩ := List.mem_map.1 hid
      have hhandled : s.handled reply.1 ≠ [] := by simpa using List.all_eq_true.1 hlate reply hreply
      exact of_decide_eq_true ((h.sound reply.1).known fun heq => hhandled (congrArg View.handled heq))
    · exact h.placed
  next => exact idle rfl rfl rfl
  next id message replies =>
    have hrest : Placed s (.late replies) :=
      ⟨nofun, fun i hi => hplaced.late i (List.mem_cons_of_mem _ hi), nofun⟩
    split_ifs
    · exact (hrest.beginClose id).goto
    · exact hrest.offer _
  next => exact select h.sound
  next left => exact receive h.sound left
  next =>
    refine ⟨fun id hid => ?_, nofun, nofun⟩
    exact of_queue h.sound ((OrderedMap.mem_keys _).1 hid)
  next id request batch =>
    have hsame : Placed s (.replying id (request.op = "hello") true (answers.first :: answers.rest) batch) :=
      hplaced.fewer (fun _ hid => hid) rfl rfl
    exact hsame.mono (fun _ h => h) rfl fun _ h => h
  next id hello first batch =>
    have hrest : Placed s (.handling batch) := hplaced.fewer (fun _ => List.mem_cons_of_mem _) rfl rfl
    exact hrest.goto
  next id hello first message replies batch =>
    have hrest : Placed s (.handling batch) := hplaced.fewer (fun _ => List.mem_cons_of_mem _) rfl rfl
    have hsame : Placed s (.replying id hello false replies batch) := hplaced.fewer (fun _ hid => hid) rfl rfl
    split_ifs
    · exact (hrest.beginClose id).goto
    · exact hsame.offer _
  next =>
    refine ⟨nofun, nofun, fun id hid => ?_⟩
    exact (OrderedMap.mem_keys _).1 (List.mem_of_mem_filter hid)
  next id ids =>
    have hsame : Placed s (.offering id answers.events ids) := hplaced.fewer (fun _ hid => hid) rfl rfl
    exact hsame.goto
  next id ids =>
    have hrest : Placed s (.pumping ids) := hplaced.fewer (fun _ => List.mem_cons_of_mem _) rfl rfl
    exact hrest.goto
  next id event events ids =>
    have hpumping : Placed s (.pumping ids) := hplaced.fewer (fun _ => List.mem_cons_of_mem _) rfl rfl
    have hsame : Placed s (.offering id events ids) := hplaced.fewer (fun _ hid => hid) rfl rfl
    dsimp only
    by_cases hgap : State.isGap event = true
    · simp only [if_pos hgap]
      split_ifs
      · exact ((hpumping.beginClose id).beginClose id).goto
      · exact (hpumping.beginClose id).offer _
    · simp only [if_neg hgap]
      split_ifs
      · exact (hpumping.beginClose id).goto
      · exact hsame.offer _
  next => exact idle rfl rfl rfl
  next id ids =>
    have hrest : Placed s (.closing ids) :=
      ⟨nofun, nofun, fun i hi => hplaced.closes i (List.mem_cons_of_mem _ hi)⟩
    split_ifs
    · exact hrest.goto
    · exact hrest.mono (fun _ h => h) rfl fun _ h => h
  next => split_ifs <;> exact idle rfl rfl rfl
  next => exact idle rfl rfl rfl
  next => split_ifs <;> exact idle rfl rfl rfl

end Placed

/-! ### Runs -/

theorem coherent_start : Coherent {} where
  fresh := nofun
  nodup := .nil
  size := Nat.zero_le _
  peers := fun _ _ => rfl
  placed := .idle rfl rfl rfl
  sound := fun _ => View.sound_default

/-- Every step of either side keeps the parts of the state together. -/
theorem Coherent.step {s : State} (h : Coherent s) (e : Step) : Coherent (s.step e) := by
  cases e with
  | reactor step =>
    obtain ⟨hat, hended, hdelivery, haccepted⟩ := s.react_owner step
    refine { h.toRegistry.react step with placed := ?_, sound := fun id => (h.sound id).moves (State.react_moves h step) }
    show Placed (s.react step) (s.react step).at
    rw [hat]
    exact h.placed.mono haccepted hended fun id hid => hdelivery ▸ hid
  | owner answers =>
    obtain ⟨hconnections, hpeers, hup, haccepted⟩ := s.own_reactor answers
    refine ⟨⟨?_, ?_, ?_, ?_⟩, .own h answers, fun id => ?_⟩
    · show ∀ id ∈ (s.own answers).accepted, id < (s.own answers).connections.nextId
      rw [haccepted, hconnections]
      exact h.fresh
    · exact haccepted ▸ h.nodup
    · show (s.own answers).connections.active.size + (s.own answers).connections.pendingDetach.length ≤ maxClients
      rw [hconnections]
      exact h.size
    · show (s.own answers).up = true → ∀ id, (s.own answers).connections.active.contains id = (s.own answers).peers.contains id
      rw [hup, hconnections, hpeers]
      exact h.peers
    · exact (State.own_moves h answers).elim (h.sound id).moves fun hstale => (h.sound id).stale hstale.2

theorem run_coherent (steps : List Step) : Coherent (run steps) :=
  History.Stable.after (I := Coherent) (fun _ e h => h.step e) coherent_start steps

/-- Without a stale refusal every step is a few moves of each connection. -/
theorem step_moves {s : State} (h : Coherent s) {e : Step} (hcalm : ¬ StaleRefused s e) (id : ℕ) :
    View.Moves (s.view id) ((s.step e).view id) := by
  cases e with
  | reactor step => exact State.react_moves h step
  | owner answers => exact (State.own_moves h answers).resolve_right fun hstale => hcalm hstale.1

theorem run_exact (steps : List Step) (hcalm : ¬ History.Happens State.step StaleRefused {} steps) (id : ℕ) :
    ((run steps).view id).Exact := by
  induction steps using List.reverseRecOn with
  | nil => exact View.exact_default
  | append_singleton steps e ih =>
    rw [History.happens_snoc, not_or] at hcalm
    rw [run, History.after_append]
    exact (ih hcalm.1).moves ((run_coherent steps).sound id) (step_moves (run_coherent steps) hcalm.2 id)

/-- The owner has closed the connection, or has taken its `Detach`. -/
def State.gone (s : State) (id : ℕ) : Prop := s.delivery.closing.contains id = true ∨ id ∈ s.ended

/-- Connections and requests are conserved between the reactor and the owner. -/
structure Conserved (s : State) : Prop where
  identities : s.accepted.Nodup
  pool : s.connections.active.size + s.connections.pendingDetach.length ≤ maxClients
  /-- every request is handled at most once, in the order its client sent it -/
  handled : ∀ id, s.handled id <+: s.admitted id
  client : ∀ id, (s.admitted id).map .request <+: s.sent id
  /-- a request is dropped unhandled only with its connection -/
  kept : ∀ id, ¬ s.gone id →
    s.handled id ++ (s.view id).batch ++ (s.view id).queued ++ (s.view id).requests = s.admitted id
  /-- a request that is received finds room -/
  room : ∀ id request rest, s.incoming = .request id request :: rest → ¬ s.gone id → (s.view id).queued.length < clientIn
  pending : ∀ id p, s.peers.get id = some p → ¬ s.gone id → p.delivery.pending = (s.view id).inFlight
  /-- the Application is detached once, when the owner closes the connection or takes its `Detach` -/
  detached : ∀ id, s.gone id → s.detached.count id = 1
  attached : ∀ id, ¬ s.gone id → id ∉ s.detached
  /-- no close is left pending for a connection that has ended -/
  settled : ∀ id ∈ s.ended, s.delivery.closing.contains id = false

/-- A run without a stale refusal conserves connections and requests. -/
theorem run_conserved (steps : List Step) (hcalm : ¬ History.Happens State.step StaleRefused {} steps) :
    Conserved (run steps) := by
  have hcoherent := run_coherent steps
  have hexact := run_exact steps hcalm
  have hsound := hcoherent.sound
  have hended : ∀ id, ¬ (run steps).gone id →
      ((run steps).view id).closing = false ∧ ((run steps).view id).ended = 0 := fun id hgone =>
    ⟨Bool.eq_false_iff.2 fun hc => hgone (.inl hc), List.count_eq_zero.2 fun he => hgone (.inr he)⟩
  have hgone : ∀ id, (run steps).gone id ↔ ((run steps).view id).closing = true ∨ ((run steps).view id).ended ≠ 0 := fun id =>
    or_congr Iff.rfl (by
      show _ ↔ (run steps).ended.count id ≠ 0
      rw [ne_eq, List.count_eq_zero, not_not])
  refine {
    identities := hcoherent.nodup
    pool := hcoherent.size
    handled := fun id => (List.prefix_append _ _).trans (hsound id).order
    client := fun id => (hsound id).from_client
    kept := fun id h => (hsound id).all (hended id h).1 (hended id h).2
    room := fun id request rest hincoming h => ?_
    pending := fun id p hp h => (hsound id).pending p hp (hended id h).1
    detached := fun id h => ((hexact id).once).trans (if_pos ((hgone id).1 h))
    attached := fun id h => List.count_eq_zero.1 (((hexact id).once).trans (if_neg (mt (hgone id).2 h)))
    settled := fun id hid => (hexact id).settled fun hzero => List.count_eq_zero.1 hzero hid }
  have hbound := (hsound id).bound (hended id h).1 (hended id h).2
  have hmail : ((run steps).view id).mail = some request :: rest.filterMap (Incoming.of id) := by
    show (run steps).incoming.filterMap _ = _
    rw [hincoming]
    exact List.filterMap_cons_some (if_pos rfl)
  have hrequests : ((run steps).view id).requests = request :: (rest.filterMap (Incoming.of id)).reduceOption := by
    rw [View.requests, hmail, List.reduceOption_cons_of_some]
  rw [View.inFlight, hrequests, List.length_cons] at hbound
  omega

/-! ### A calm run, and one that is not -/

/-- Two clients say hello, and the first starts an output write that is not settled at once. -/
def twoClients : List Step :=
  [.reactor (.accept false), .reactor (.arrive 1 (.request ⟨"a", "hello"⟩)), .reactor (.dispatch 1),
    .reactor (.accept false), .reactor (.arrive 2 (.request ⟨"b", "hello"⟩)), .reactor (.dispatch 2),
    .reactor (.arrive 1 (.request ⟨"c", "output_write"⟩)), .reactor (.dispatch 1)] ++ List.replicate 36 (.owner {})

/-- The first client goes; the second is offered four events a turn while the reactor stands still. -/
def fillMailbox : List Step :=
  List.replicate 3 (.reactor .take) ++ [.reactor (.lose 1), .reactor .sendDetach] ++
    List.replicate 225 (.owner { events := List.replicate 4 {} })

/-- The write of the first client settles. -/
def lateReply : Message := { msgId := some "c", type := some "operation", state := some "completed" }

/-- The write settles after its client has gone and while the mailbox is full. -/
def settlesLate : List Step := twoClients ++ fillMailbox ++ [.owner { late := [(1, lateReply)] }, .owner {}]

theorem full_mailbox_conserved :
    ¬ History.Happens State.step StaleRefused {} (twoClients ++ fillMailbox) ∧ Conserved (run (twoClients ++ fillMailbox)) :=
  ⟨by decide +kernel, run_conserved _ (by decide +kernel)⟩

/-- The first client is detached a second time. -/
theorem late_reply_detaches_again : ¬ Conserved (run settlesLate) := by
  intro h
  have honce := h.detached 1 (.inr (by decide +kernel))
  have htwice : (run settlesLate).detached.count 1 = 2 := by decide +kernel
  rw [htwice] at honce
  cases honce

end LabRuntime.Server
