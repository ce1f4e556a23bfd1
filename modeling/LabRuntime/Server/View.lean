import LabRuntime.Server.Machine
import Mathlib.Logic.Relation
import Mathlib.Data.List.ReduceOption

/-! The life of one connection: what both sides and the mailboxes hold of it, what one step can do
to that, and what is true of it throughout. -/

namespace LabRuntime.Server

/-- What the client has sent and the reactor has not submitted. -/
def Peer.unread (p : Peer) : List Frame := p.stagedRequest.toList.map .request ++ p.input

/-- Everything the system holds of one connection. -/
structure View where
  known : Bool := false
  peer : Option Peer := none
  /-- detaches the reactor has begun and not sent -/
  leaving : ℕ := 0
  /-- its messages to the owner; `none` is `Detach` -/
  mail : List (Option WireRequest) := []
  queue : Option (List WireRequest) := none
  batch : List WireRequest := []
  /-- first replies the reactor has not taken -/
  owed : ℕ := 0
  closing : Bool := false
  ended : ℕ := 0
  detached : ℕ := 0
  sent : List Frame := []
  admitted : List WireRequest := []
  handled : List WireRequest := []

namespace View

def alive (v : View) : ℕ := if v.peer.isSome then 1 else 0

def requests (v : View) : List WireRequest := v.mail.reduceOption

def queued (v : View) : List WireRequest := v.queue.getD []

/-- Requests submitted whose first reply the reactor has not taken. -/
def inFlight (v : View) : ℕ := v.requests.length + v.queued.length + v.batch.length + v.owed

/-! ### Moves -/

/-- A change of a peer that submits nothing. -/
structure Quiet (p p' : Peer) : Prop where
  pending : p'.delivery.pending = p.delivery.pending
  closed : p.delivery.closing = true → p'.delivery.closing = true
  unread : p'.delivery.closing = false → p'.unread = p.unread
  room : p'.stagedRequest.isSome → p.stagedRequest.isSome ∨ p.delivery.pending < clientIn

/-- What one step can do to a connection. -/
inductive Move (v : View) : View → Prop
  | accept (websocket : Bool) (h : v.known = false) : Move v { v with known := true, peer := some { websocket } }
  | arrive (p : Peer) (frame : Frame) (h : v.peer = some p) :
    Move v { v with peer := some { p with input := p.input ++ [frame] }, sent := v.sent ++ [frame] }
  | quiet (p p' : Peer) (h : v.peer = some p) (hq : Quiet p p') : Move v { v with peer := some p' }
  | submit (p p' : Peer) (r : WireRequest) (h : v.peer = some p) (hopen : p.delivery.closing = false)
    (hpending : p'.delivery.pending = p.delivery.pending + 1)
    (hroom : p.stagedRequest.isSome ∨ p.delivery.pending < clientIn) (hstaged : p'.stagedRequest = none)
    (hunread : p.unread = .request r :: p'.unread) :
    Move v { v with peer := some p', mail := v.mail ++ [some r], admitted := v.admitted ++ [r] }
  | lose (p : Peer) (h : v.peer = some p) : Move v { v with peer := none, leaving := v.leaving + 1 }
  | leave (n : ℕ) (h : v.leaving = n + 1) : Move v { v with leaving := n, mail := v.mail ++ [none] }
  | down (n : ℕ) (h : n ≤ v.owed) : Move v { v with peer := none, owed := n }
  | taken (n : ℕ) (h : v.owed = n + 1) (hp : v.peer = none) : Move v { v with owed := n }
  | pushed (n : ℕ) (p p' : Peer) (h : v.owed = n + 1) (hp : v.peer = some p)
    (hpending : p'.delivery.pending = p.delivery.pending - 1) (hclosing : p'.delivery.closing = p.delivery.closing)
    (hstaged : p'.stagedRequest = p.stagedRequest) (hinput : p'.input = p.input) :
    Move v { v with owed := n, peer := some p' }
  | receive (r : WireRequest) (mail : List (Option WireRequest)) (h : v.mail = some r :: mail) (hopen : v.closing = false) :
    Move v { v with mail, queue := some (if v.queued.length < clientIn then v.queued ++ [r] else v.queued) }
  | discard (r : WireRequest) (mail : List (Option WireRequest)) (h : v.mail = some r :: mail) (hclosing : v.closing = true) :
    Move v { v with mail }
  | detach (mail : List (Option WireRequest)) (h : v.mail = none :: mail) (hbatch : v.batch = []) :
    Move v { v with
      mail, queue := none, closing := false, ended := v.ended + 1
      detached := if v.closing then v.detached else v.detached + 1 }
  | select (taken rest : List WireRequest) (h : v.queue = some (taken ++ rest)) (hbatch : v.batch = []) :
    Move v { v with queue := some rest, batch := taken }
  | handle (r : WireRequest) (batch : List WireRequest) (h : v.batch = r :: batch) :
    Move v { v with batch, handled := v.handled ++ [r], owed := v.owed + 1 }
  | close (h : v.known = true) (hended : v.ended = 0) :
    Move v { v with queue := none, closing := true, detached := if v.closing then v.detached else v.detached + 1 }
  | closeSent (h : v.closing = true) : Move v { v with queue := none }
  | unsaid (n : ℕ) (h : v.closing = true) (hn : n ≤ v.owed) : Move v { v with owed := n }

/-- What no other step does: a late reply is refused after the connection has ended. -/
def Stale (v v' : View) : Prop :=
  v.known = true ∧ v.ended ≠ 0 ∧
    v' = { v with queue := none, closing := true, detached := if v.closing then v.detached else v.detached + 1 }

abbrev Moves : View → View → Prop := Relation.ReflTransGen Move

theorem moves_of_eq {v v' : View} (h : v' = v) : Moves v v' := h ▸ .refl

theorem moves_of_move {v w v' : View} (h : Move v w) (heq : v' = w) : Moves v v' := heq ▸ .single h

/-! ### What is true throughout -/

/-- Order and count of the requests of a connection, whoever closes it and when. -/
structure Sound (v : View) : Prop where
  unknown : v.known = false → v = {}
  /-- a connection is served, or leaving, or its one `Detach` is under way or was taken -/
  life : v.alive + v.leaving + v.mail.count none + v.ended ≤ 1
  /-- `Detach` is the last message -/
  last : v.mail.Pairwise fun a _ => a ≠ none
  ceased : v.ended ≠ 0 → v.mail = [] ∧ v.queue = none ∧ v.batch = []
  closed : v.closing = true → v.queue = none
  order : v.handled ++ v.batch <+: v.admitted
  all : v.closing = false → v.ended = 0 → v.handled ++ v.batch ++ v.queued ++ v.requests = v.admitted
  from_client : v.admitted.map .request <+: v.sent
  unread : ∀ p, v.peer = some p → p.delivery.closing = false → v.sent = v.admitted.map .request ++ p.unread
  bound : v.closing = false → v.ended = 0 → v.inFlight ≤ clientIn
  pending : ∀ p, v.peer = some p → v.closing = false → p.delivery.pending = v.inFlight
  room : ∀ p, v.peer = some p → p.stagedRequest.isSome → p.delivery.pending < clientIn

/-- The Application is detached once, when the owner closes the connection or takes its `Detach`. -/
structure Exact (v : View) : Prop where
  once : v.detached = if v.closing = true ∨ v.ended ≠ 0 then 1 else 0
  settled : v.ended ≠ 0 → v.closing = false

theorem sound_default : Sound {} := by
  constructor
  case life => exact Nat.le_of_ble_eq_true rfl
  case last => exact .nil
  case order | from_client => exact List.prefix_rfl
  case bound => exact fun _ _ => Nat.zero_le _
  case unknown | all => intros; rfl
  case ceased => exact fun h => absurd rfl h
  case closed => exact fun h => nomatch h
  case unread | pending | room => exact fun _ h => nomatch h

namespace Sound

variable {v v' : View}

theorem alive_eq {p : Peer} (hp : v.peer = some p) : v.alive = 1 := by simp [alive, hp]

/-- A connection with a peer has not left. -/
theorem served (h : Sound v) {p : Peer} (hp : v.peer = some p) : v.leaving = 0 ∧ none ∉ v.mail ∧ v.ended = 0 := by
  have hlife := h.life
  rw [alive_eq hp] at hlife
  have hcount : v.mail.count none = 0 := by omega
  exact ⟨by omega, List.count_eq_zero.1 hcount, by omega⟩

theorem known_of_ne (h : Sound v) (hne : v ≠ {}) {P : Prop} (hf : v.known = false) : P :=
  absurd (h.unknown hf) hne

theorem known (h : Sound v) (hne : v ≠ {}) : v.known = true := by
  cases hk : v.known with
  | true => rfl
  | false => exact h.known_of_ne hne hk

theorem known_of_peer (h : Sound v) {p : Peer} (hp : v.peer = some p) {P : Prop} (hf : v.known = false) : P :=
  h.known_of_ne (by rintro rfl; cases hp) hf

theorem quiet (h : Sound v) {p p' : Peer} (hp : v.peer = some p) (hq : Quiet p p') : Sound { v with peer := some p' } := by
  have hlife := h.life
  rw [alive_eq hp] at hlife
  refine { h with
    unknown := h.known_of_peer hp
    life := hlife
    unread := ?_
    pending := ?_
    room := ?_ }
  · intro q hq' hopen
    cases hq'
    have hwas : p.delivery.closing = false := by
      cases hc : p.delivery.closing with
      | false => rfl
      | true => rw [hq.closed hc] at hopen; cases hopen
    rw [hq.unread hopen]
    exact h.unread p hp hwas
  · intro q hq' hclosing
    cases hq'
    rw [hq.pending]
    exact h.pending p hp hclosing
  · intro q hq' hs
    cases hq'
    rw [hq.pending]
    exact (hq.room hs).elim (h.room p hp) id

theorem submit (h : Sound v) {p p' : Peer} {r : WireRequest} (hp : v.peer = some p) (hopen : p.delivery.closing = false)
    (hpending : p'.delivery.pending = p.delivery.pending + 1)
    (hroom : p.stagedRequest.isSome ∨ p.delivery.pending < clientIn) (hstaged : p'.stagedRequest = none)
    (hunread : p.unread = .request r :: p'.unread) :
    Sound { v with peer := some p', mail := v.mail ++ [some r], admitted := v.admitted ++ [r] } := by
  obtain ⟨hleaving, hmail, hended⟩ := h.served hp
  have hsent : v.sent = (v.admitted ++ [r]).map .request ++ p'.unread := by
    rw [h.unread p hp hopen, hunread]
    simp
  have hcount : p.delivery.pending < clientIn := hroom.elim (h.room p hp) id
  have hrequests : (v.mail ++ [some r]).reduceOption = v.requests ++ [r] := by
    simp [requests, List.reduceOption_append]
  have hlife := h.life
  rw [alive_eq hp] at hlife
  exact {
    unknown := h.known_of_peer hp
    life := by simpa [alive, List.count_append] using hlife
    last := by
      refine List.pairwise_append.2 ⟨h.last, List.pairwise_singleton _ _, fun a ha b _ heq => ?_⟩
      exact hmail (heq ▸ ha)
    ceased := fun hne => absurd hended hne
    closed := h.closed
    order := h.order.trans (List.prefix_append _ _)
    all := fun hc he => by
      have hall := h.all hc he
      simp only [requests, queued] at hall ⊢
      rw [← hall, hrequests]
      simp [requests]
    from_client := ⟨p'.unread, hsent.symm⟩
    unread := fun q hq _ => by cases hq; exact hsent
    bound := fun hc he => by
      have hin := h.pending p hp hc
      simp only [inFlight, requests, queued] at hin ⊢
      rw [hrequests, List.length_append, List.length_singleton]
      simp only [requests]
      omega
    pending := fun q hq hc => by
      cases hq
      have hin := h.pending p hp hc
      simp only [inFlight, requests, queued] at hin ⊢
      rw [hrequests, hpending, hin, List.length_append, List.length_singleton]
      simp only [requests]
      omega
    room := fun q hq hs => by
      cases hq
      rw [hstaged] at hs
      cases hs }

theorem arrive (h : Sound v) {p : Peer} {frame : Frame} (hp : v.peer = some p) :
    Sound { v with peer := some { p with input := p.input ++ [frame] }, sent := v.sent ++ [frame] } := by
  have hlife := h.life
  rw [alive_eq hp] at hlife
  refine { h with
    unknown := h.known_of_peer hp
    life := hlife
    from_client := h.from_client.trans (List.prefix_append _ _)
    unread := ?_
    pending := ?_
    room := ?_ }
  · intro q hq hopen
    cases hq
    show v.sent ++ [frame] = _
    rw [h.unread p hp hopen]
    simp [Peer.unread]
  · intro q hq hc
    cases hq
    exact h.pending p hp hc
  · intro q hq hs
    cases hq
    exact h.room p hp hs

theorem lose (h : Sound v) {p : Peer} (hp : v.peer = some p) : Sound { v with peer := none, leaving := v.leaving + 1 } := by
  have hlife := h.life
  rw [alive_eq hp] at hlife
  refine { h with
    unknown := h.known_of_peer hp
    life := ?_
    unread := fun q hq => by cases hq
    pending := fun q hq => by cases hq
    room := fun q hq => by cases hq }
  show 0 + (v.leaving + 1) + v.mail.count none + v.ended ≤ 1
  omega

theorem leave (h : Sound v) {n : ℕ} (hn : v.leaving = n + 1) : Sound { v with leaving := n, mail := v.mail ++ [none] } := by
  have hlife := h.life
  have hcount : v.mail.count none = 0 := by omega
  have hnone : v.peer = none := by
    cases hp : v.peer with
    | none => rfl
    | some p => rw [alive_eq hp] at hlife; omega
  have hrequests : (v.mail ++ [none]).reduceOption = v.requests := by simp [requests, List.reduceOption_append]
  refine { h with
    unknown := fun hf => h.known_of_ne (by rintro rfl; cases hn) hf
    life := ?_
    last := ?_
    ceased := ?_
    all := ?_
    bound := ?_
    pending := fun p hp => by rw [hnone] at hp; cases hp }
  · show v.alive + n + (v.mail ++ [none]).count none + v.ended ≤ 1
    rw [List.count_append, List.count_singleton_self]
    omega
  · refine List.pairwise_append.2 ⟨h.last, List.pairwise_singleton _ _, fun a ha b _ heq => ?_⟩
    exact List.count_eq_zero.1 hcount (heq ▸ ha)
  · intro hne
    exact absurd hne (by show ¬ v.ended ≠ 0; omega)
  · intro hc he
    show _ ++ (v.mail ++ [none]).reduceOption = _
    rw [hrequests]
    exact h.all hc he
  · intro hc he
    show (v.mail ++ [none]).reduceOption.length + _ + _ + _ ≤ _
    rw [hrequests]
    exact h.bound hc he

theorem down (h : Sound v) {n : ℕ} (hn : n ≤ v.owed) : Sound { v with peer := none, owed := n } := by
  have hlife := h.life
  refine { h with
    unknown := ?_
    life := ?_
    unread := fun q hq => by cases hq
    bound := ?_
    pending := fun q hq => by cases hq
    room := fun q hq => by cases hq }
  · intro hf
    obtain rfl := h.unknown hf
    obtain rfl : n = 0 := Nat.le_zero.1 hn
    rfl
  · show 0 + v.leaving + v.mail.count none + v.ended ≤ 1
    omega
  · intro hc he
    have hin := h.bound hc he
    simp only [inFlight, requests, queued] at hin ⊢
    omega

theorem taken (h : Sound v) {n : ℕ} (hn : v.owed = n + 1) (hp : v.peer = none) : Sound { v with owed := n } := by
  refine { h with
    unknown := fun hf => h.known_of_ne (by rintro rfl; cases hn) hf
    bound := ?_
    pending := fun p hq => by rw [hp] at hq; cases hq }
  intro hc he
  have hin := h.bound hc he
  simp only [inFlight, requests, queued] at hin ⊢
  omega

theorem pushed (h : Sound v) {n : ℕ} {p p' : Peer} (hn : v.owed = n + 1) (hp : v.peer = some p)
    (hpending : p'.delivery.pending = p.delivery.pending - 1) (hclosing : p'.delivery.closing = p.delivery.closing)
    (hstaged : p'.stagedRequest = p.stagedRequest) (hinput : p'.input = p.input) :
    Sound { v with owed := n, peer := some p' } := by
  have hlife := h.life
  rw [alive_eq hp] at hlife
  refine { h with
    unknown := h.known_of_peer hp
    life := hlife
    unread := ?_
    bound := ?_
    pending := ?_
    room := ?_ }
  · intro q hq hopen
    cases hq
    rw [show p'.unread = p.unread by rw [Peer.unread, Peer.unread, hstaged, hinput]]
    exact h.unread p hp (hclosing ▸ hopen)
  · intro hc he
    have hin := h.bound hc he
    simp only [inFlight, requests, queued] at hin ⊢
    omega
  · intro q hq hc
    cases hq
    have hin := h.pending p hp hc
    simp only [inFlight, requests, queued] at hin ⊢
    omega
  · intro q hq hs
    cases hq
    have hroom := h.room p hp (hstaged ▸ hs)
    omega

theorem receive (h : Sound v) {r : WireRequest} {mail : List (Option WireRequest)} (hm : v.mail = some r :: mail)
    (hopen : v.closing = false) :
    Sound { v with mail, queue := some (if v.queued.length < clientIn then v.queued ++ [r] else v.queued) } := by
  have hended : v.ended = 0 := by
    by_contra hne
    rw [(h.ceased hne).1] at hm
    cases hm
  have hrequests : v.requests = r :: mail.reduceOption := by rw [requests, hm, List.reduceOption_cons_of_some]
  have hin := h.bound hopen hended
  -- the message being received is one of the eight the connection may have in flight
  have hroom : v.queued.length < clientIn := by
    rw [inFlight, hrequests, List.length_cons] at hin
    omega
  have hlife := h.life
  have hlast := h.last
  rw [hm, List.count_cons_of_ne (Option.some_ne_none r)] at hlife
  rw [hm] at hlast
  rw [if_pos hroom]
  have hsame : mail.reduceOption.length + (v.queued ++ [r]).length + v.batch.length + v.owed = v.inFlight := by
    simp only [inFlight, hrequests, List.length_append, List.length_cons, List.length_nil]
    omega
  refine { h with
    unknown := fun hf => h.known_of_ne (by rintro rfl; cases hm) hf
    life := hlife
    last := hlast.tail
    ceased := fun hne => absurd hended hne
    closed := fun hc => by rw [hopen] at hc; cases hc
    all := ?_
    bound := fun _ _ => hsame.trans_le hin
    pending := fun p hp hc => (h.pending p hp hc).trans hsame.symm }
  intro hc he
  have hall := h.all hc he
  rw [hrequests] at hall
  show v.handled ++ v.batch ++ (v.queued ++ [r]) ++ mail.reduceOption = v.admitted
  rw [← hall]
  simp

theorem discard (h : Sound v) {r : WireRequest} {mail : List (Option WireRequest)} (hm : v.mail = some r :: mail)
    (hclosing : v.closing = true) : Sound { v with mail } := by
  have hlife := h.life
  have hlast := h.last
  rw [hm, List.count_cons_of_ne (Option.some_ne_none r)] at hlife
  rw [hm] at hlast
  refine { h with
    unknown := fun hf => h.known_of_ne (by rintro rfl; cases hm) hf
    life := hlife
    last := hlast.tail
    ceased := fun hne => ?_
    all := fun hc => by rw [hclosing] at hc; cases hc
    bound := fun hc => by rw [hclosing] at hc; cases hc
    pending := fun p _ hc => by rw [hclosing] at hc; cases hc }
  rw [(h.ceased hne).1] at hm
  cases hm

theorem detach (h : Sound v) {mail : List (Option WireRequest)} (hm : v.mail = none :: mail) (hbatch : v.batch = [])
    (n : ℕ) : Sound { v with mail, queue := none, closing := false, ended := v.ended + 1, detached := n } := by
  have hlife := h.life
  have hlast := h.last
  rw [hm, List.count_cons_self] at hlife
  rw [hm] at hlast
  have hend : mail = [] := List.eq_nil_iff_forall_not_mem.2 fun a ha => List.rel_of_pairwise_cons hlast ha rfl
  have hnone : v.peer = none := by
    cases hp : v.peer with
    | none => rfl
    | some p => rw [alive_eq hp] at hlife; omega
  refine { h with
    unknown := fun hf => h.known_of_ne (by rintro rfl; cases hm) hf
    life := ?_
    last := hlast.tail
    ceased := fun _ => ⟨hend, rfl, hbatch⟩
    closed := fun hc => nomatch hc
    all := fun _ he => by cases he
    unread := fun p hp => by rw [hnone] at hp; cases hp
    bound := fun _ he => by cases he
    pending := fun p hp => by rw [hnone] at hp; cases hp
    room := fun p hp => by rw [hnone] at hp; cases hp }
  show v.alive + v.leaving + mail.count none + (v.ended + 1) ≤ 1
  omega

theorem select (h : Sound v) {taken rest : List WireRequest} (hq : v.queue = some (taken ++ rest)) (hbatch : v.batch = []) :
    Sound { v with queue := some rest, batch := taken } := by
  have hopen : v.closing = false := by
    cases hc : v.closing with
    | false => rfl
    | true => rw [h.closed hc] at hq; cases hq
  have hended : v.ended = 0 := by
    by_contra hne
    rw [(h.ceased hne).2.1] at hq
    cases hq
  have hqueued : v.queued = taken ++ rest := by rw [queued, hq, Option.getD_some]
  have hall := h.all hopen hended
  rw [hbatch, hqueued, List.append_nil] at hall
  have hsame : v.requests.length + rest.length + taken.length + v.owed = v.inFlight := by
    rw [inFlight, hbatch, hqueued, List.length_append, List.length_nil]
    omega
  exact { h with
    unknown := fun hf => h.known_of_ne (by rintro rfl; cases hq) hf
    ceased := fun hne => absurd hended hne
    closed := fun hc => by rw [hopen] at hc; cases hc
    order := ⟨rest ++ v.requests, by simp [← hall]⟩
    all := fun _ _ => by simp only [← hall, queued, Option.getD_some, List.append_assoc]; rfl
    bound := fun hc he => hsame.trans_le (h.bound hc he)
    pending := fun p hp hc => (h.pending p hp hc).trans hsame.symm }

theorem handle (h : Sound v) {r : WireRequest} {batch : List WireRequest} (hb : v.batch = r :: batch) :
    Sound { v with batch, handled := v.handled ++ [r], owed := v.owed + 1 } := by
  have hsame : v.requests.length + v.queued.length + batch.length + (v.owed + 1) = v.inFlight := by
    rw [inFlight, hb, List.length_cons]
    omega
  have hlist : v.handled ++ [r] ++ batch = v.handled ++ v.batch := by rw [hb]; simp
  exact { h with
    unknown := fun hf => h.known_of_ne (by rintro rfl; cases hb) hf
    ceased := fun hne => by rw [(h.ceased hne).2.2] at hb; cases hb
    order := by
      show v.handled ++ [r] ++ batch <+: v.admitted
      rw [hlist]
      exact h.order
    all := fun hc he => by
      show v.handled ++ [r] ++ batch ++ v.queued ++ v.requests = v.admitted
      rw [hlist]
      exact h.all hc he
    bound := fun hc he => hsame.trans_le (h.bound hc he)
    pending := fun p hp hc => (h.pending p hp hc).trans hsame.symm }

theorem close (h : Sound v) (hk : v.known = true) (n : ℕ) :
    Sound { v with queue := none, closing := true, detached := n } :=
  { h with
    unknown := fun hf => by rw [hk] at hf; cases hf
    ceased := fun hne => ⟨(h.ceased hne).1, rfl, (h.ceased hne).2.2⟩
    closed := fun _ => rfl
    all := fun hc => nomatch hc
    bound := fun hc => nomatch hc
    pending := fun _ _ hc => nomatch hc }

theorem closeSent (h : Sound v) (hc : v.closing = true) : Sound { v with queue := none } := by
  have hq := h.closed hc
  rwa [show ({ v with queue := none } : View) = v by rw [← hq]]

theorem unsaid (h : Sound v) {n : ℕ} (hc : v.closing = true) : Sound { v with owed := n } :=
  { h with
    unknown := fun hf => h.known_of_ne (by rintro rfl; cases hc) hf
    all := fun hf => by rw [hc] at hf; cases hf
    bound := fun hf => by rw [hc] at hf; cases hf
    pending := fun _ _ hf => by rw [hc] at hf; cases hf }

theorem accept (h : Sound v) (hk : v.known = false) (websocket : Bool) :
    Sound { v with known := true, peer := some { websocket } } := by
  obtain rfl := h.unknown hk
  exact { sound_default with
    unknown := fun hf => nomatch hf
    life := Nat.le_refl 1
    unread := fun p hp _ => by cases hp; rfl
    pending := fun p hp _ => by cases hp; rfl
    room := fun p hp hs => by cases hp; cases hs }

/-- Every step keeps the order and the count of a connection's requests. -/
theorem move (h : Sound v) (hm : Move v v') : Sound v' := by
  cases hm with
  | accept websocket hk => exact h.accept hk websocket
  | arrive p frame hp => exact h.arrive hp
  | quiet p p' hp hq => exact h.quiet hp hq
  | submit p p' r hp hopen hpending hroom hstaged hunread => exact h.submit hp hopen hpending hroom hstaged hunread
  | lose p hp => exact h.lose hp
  | leave n hn => exact h.leave hn
  | down n hn => exact h.down hn
  | taken n hn hp => exact h.taken hn hp
  | pushed n p p' hn hp hpending hclosing hstaged hinput => exact h.pushed hn hp hpending hclosing hstaged hinput
  | receive r mail hm hopen => exact h.receive hm hopen
  | discard r mail hm hclosing => exact h.discard hm hclosing
  | detach mail hm hbatch => exact h.detach hm hbatch _
  | select taken rest hq hbatch => exact h.select hq hbatch
  | handle r batch hb => exact h.handle hb
  | close hk _ => exact h.close hk _
  | closeSent hc => exact h.closeSent hc
  | unsaid n hc => exact h.unsaid hc

theorem moves (h : Sound v) (hm : Moves v v') : Sound v' := by
  induction hm with
  | refl => exact h
  | tail _ hm ih => exact ih.move hm

theorem stale (h : Sound v) (hm : Stale v v') : Sound v' := by
  obtain ⟨hk, -, rfl⟩ := hm
  exact h.close hk _

end Sound

theorem exact_default : Exact {} := ⟨rfl, fun h => absurd rfl h⟩

/-- Every step but a late reply refused after the end keeps the detach exact. -/
theorem Exact.move {v v' : View} (h : Exact v) (hs : Sound v) (hm : Move v v') : Exact v' := by
  cases hm with
  | detach mail hmail hbatch =>
    have hended : v.ended = 0 := by
      by_contra hne
      rw [(hs.ceased hne).1] at hmail
      cases hmail
    have honce := h.once
    refine ⟨?_, fun _ => rfl⟩
    simp only [hended, ne_eq, not_true_eq_false, or_false, Bool.false_eq_true, false_or, Nat.zero_add, one_ne_zero,
      not_false_eq_true, if_true] at honce ⊢
    split_ifs at honce ⊢ <;> omega
  | close hk hended =>
    have honce := h.once
    refine ⟨?_, fun hne => absurd hended hne⟩
    simp only [hended, ne_eq, not_true_eq_false, or_false, if_true] at honce ⊢
    split_ifs at honce ⊢ <;> omega
  | _ => exact ⟨h.once, h.settled⟩

theorem Exact.moves {v v' : View} (h : Exact v) (hs : Sound v) (hm : Moves v v') : Exact v' := by
  induction hm with
  | refl => exact h
  | tail hms hm ih => exact ih.move (hs.moves hms) hm

end View

end LabRuntime.Server
