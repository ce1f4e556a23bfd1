import LabRuntime.Events.Run

/-! Subscriptions over the event log. A pump scans at most 32 records after the subscription's
position and offers at most four that match; positions only move over records that were looked
at, so what is offered is the matching part of a stretch of the history without a hole. -/

namespace LabRuntime.Events

/-! ### Subscribing and pumping -/

/-- A `u64` without signs or leading zeros; a text of digits has one byte a character. -/
def decimalU64 (text : String) : Option ℕ :=
  if text.toList.isEmpty ∨ 20 < text.toList.length ∨
      (1 < text.toList.length ∧ text.toList.head? = some '0') ∨ ¬ text.toList.all Char.isDigit then none
  else parseU64 text

structure FilterTarget where
  kind : String
  target : TargetJson
  deriving DecidableEq, Repr

structure Subscription where
  token : String
  scan : ℕ
  kinds : List String
  targets : List FilterTarget
  deriving DecidableEq, Repr

/-- A subscribe request after its JSON is decoded. -/
structure SubscribeArgs where
  bootId : String
  seq : ℕ
  kinds : List String
  targets : List FilterTarget

/-- What a pump hands to the connection. -/
inductive Offer (D : Type)
  | event (record : EventRecord D)
  | progress (subscription bootId seq : String)
  | error (code : String)

/-- The part of the application that owns subscriptions. -/
structure Subscriptions where
  nextToken : ℕ
  subscriptions : OrderedMap ℕ Subscription

def subscribableKinds : List String :=
  ["signal", "controller", "reference", "component", "output", "operation", "host", "recorder",
    "resource", "configuration"]

variable {D : Type}

/-- The filter's test of one record. -/
def Subscription.selects (subscription : Subscription) (record : EventRecord D) : Bool :=
  (subscription.kinds.isEmpty || subscription.kinds.any (· == record.kind)) &&
    (subscription.targets.isEmpty ||
      subscription.targets.any fun target => record.kind == target.kind && record.target == target.target)

namespace Subscriptions

variable (app : Subscriptions)

def issueToken (bootId : String) : Except String (String × Subscriptions) :=
  match checkedAdd app.nextToken 1 with
  | none => .error "counter_exhausted"
  | some next => .ok (bootId ++ ":" ++ app.nextToken.repr, { app with nextToken := next })

/-- Accepts with the subscription's token. -/
def subscribe (log : EventLog D) (bootId : String) (connection : ℕ) (args : SubscribeArgs) :
    Except String (String × Subscriptions) :=
  if app.subscriptions.contains connection then .error "subscription_busy"
  else if args.bootId ≠ bootId then .error "instance_changed"
  else
    match log.scanAfter args.seq 1 with
    | .error .gap => .error "event_gap"
    | .error .future => .error "invalid_cursor"
    | .error _ => .error "event_error"
    | .ok _ =>
      if 8 < args.kinds.length ∨ 16 < args.targets.length then .error "invalid_args"
      else if args.kinds.any fun name => !subscribableKinds.contains name then .error "invalid_args"
      else
        match app.issueToken bootId with
        | .error error => .error error
        | .ok (token, app) =>
          .ok (token, { app with
            subscriptions := app.subscriptions.insert connection ⟨token, args.seq, args.kinds, args.targets⟩ })

/-- Look at records in turn until four match: the position reached and the matches. -/
def scanEvents (subscription : Subscription) :
    List (EventRecord D) → ℕ → List (EventRecord D) → ℕ × List (EventRecord D)
  | [], scanned, offered => (scanned, offered)
  | event :: events, scanned, offered =>
    let scanned := (decimalU64 event.seq).getD scanned
    if subscription.selects event then
      let offered := offered ++ [event]
      if 4 ≤ offered.length then (scanned, offered) else scanEvents subscription events scanned offered
    else scanEvents subscription events scanned offered

def pumpEvents (log : EventLog D) (bootId : String) (connection : ℕ) : List (Offer D) × Subscriptions :=
  match app.subscriptions.get connection with
  | none => ([], app)
  | some subscription =>
    match log.scanAfter subscription.scan 32 with
    | .error _ =>
      ([.error "event_gap"], { app with subscriptions := app.subscriptions.remove connection })
    | .ok events =>
      let (scanned, offered) := scanEvents subscription events subscription.scan []
      let app := { app with
        subscriptions := app.subscriptions.insert connection { subscription with scan := scanned } }
      if offered.isEmpty ∧ subscription.scan < scanned then
        ([.progress subscription.token bootId scanned.repr], app)
      else (offered.map .event, app)

end Subscriptions

/-! ### Positions read back -/

theorem decimalU64_repr {n : ℕ} (h : n ≤ u64Max) : decimalU64 n.repr = some n := by
  have hlen : n.repr.toList.length ≤ 20 := by
    rw [String.length_toList]
    exact (Nat.length_repr_le_iff (by decide)).2 (lt_of_le_of_lt h (by decide))
  unfold decimalU64
  rw [if_neg, parseU64_repr h]
  rintro (hempty | hlong | ⟨hlong, hhead⟩ | hdigit)
  · exact Decimal.toList_ne_nil n (List.isEmpty_iff.1 hempty)
  · omega
  · rcases Nat.eq_zero_or_pos n with rfl | hpos
    · simp at hlong
    · exact Decimal.head_ne_zero hpos hhead
  · exact hdigit (Decimal.all_isDigit n)

/-- The position a scan reaches and what it offers: the matches of what it looked at. -/
theorem scanEvents_spec (subscription : Subscription) {events : List (EventRecord D)} {k : ℕ}
    (hseqs : events.map EventRecord.seq = (List.range' (k + 1) events.length).map Nat.repr)
    (hmax : k + events.length ≤ u64Max) (offered : List (EventRecord D)) :
    ∃ n ≤ events.length, Subscriptions.scanEvents subscription events k offered =
      (k + n, offered ++ (events.take n).filter subscription.selects) := by
  induction events generalizing k offered with
  | nil => exact ⟨0, le_rfl, by simp [Subscriptions.scanEvents]⟩
  | cons event events ih =>
    rw [List.map_cons, List.length_cons, List.range'_succ, List.map_cons] at hseqs
    obtain ⟨hseq, hseqs⟩ := List.cons.inj hseqs
    rw [List.length_cons] at hmax
    have hparse : (decimalU64 event.seq).getD k = k + 1 := by
      rw [hseq, decimalU64_repr (by omega)]
      rfl
    simp only [Subscriptions.scanEvents, hparse]
    by_cases hselects : subscription.selects event
    · rw [if_pos hselects]
      split_ifs
      · exact ⟨1, by simp, by simp [hselects]⟩
      · obtain ⟨n, hn, heq⟩ := ih hseqs (by omega) (offered ++ [event])
        refine ⟨n + 1, Nat.succ_le_succ hn, ?_⟩
        rw [heq, List.take_succ_cons, List.filter_cons_of_pos hselects, List.append_assoc, List.singleton_append]
        congr 1
        omega
    · rw [if_neg hselects]
      obtain ⟨n, hn, heq⟩ := ih hseqs (by omega) offered
      refine ⟨n + 1, Nat.succ_le_succ hn, ?_⟩
      rw [heq, List.take_succ_cons, List.filter_cons_of_neg hselects]
      congr 1
      omega

theorem range'_take (start n k : ℕ) : (List.range' start n).take k = List.range' start (min k n) := by
  rcases Nat.le_total n k with h | h
  · rw [List.take_range'_of_length_le h, min_eq_right h]
  · rw [List.take_range'_of_length_ge h, min_eq_left h]

/-- The history after one cursor and up to another. -/
theorem Numbered.filter_between {history : List (EventRecord D)} (h : Numbered history) (c k : ℕ)
    (p : EventRecord D → Bool) :
    history.filter (fun e => After c e && !After k e && p e) = ((history.take k).drop c).filter p := by
  have hsplit : history.filter (fun e => After c e && !After k e) = (history.take k).drop c := by
    have hlow : (history.take k).filter (fun e => After c e && !After k e) = (history.take k).filter (After c) :=
      List.filter_congr fun e he => by simp [h.after_take he]
    have hhigh : (history.drop k).filter (fun e => After c e && !After k e) = [] :=
      List.filter_eq_nil_iff.2 fun e he => by simp [h.after_drop he]
    have hshort : (history.take k).filter (After c) = (history.take k).drop c := by
      have htake : Numbered (history.take k) := by
        refine ⟨?_, (List.length_take_le' _ _).trans h.bounded⟩
        rw [List.map_take, h.seqs, ← List.map_take, List.length_take, range'_take]
      have hfilter := htake.filter_after 0 c
      rwa [List.drop_zero, max_eq_right (Nat.zero_le _)] at hfilter
    conv_lhs => rw [← List.take_append_drop k history]
    rw [List.filter_append, hlow, hhigh, List.append_nil, hshort]
  rw [← hsplit, List.filter_filter]
  exact List.filter_congr fun e _ => by cases p e <;> simp

/-! ### Runs of one connection -/

variable [EventData D]

inductive DeliveryOp (D : Type)
  | log (op : LogOp D)
  | pump

def DeliveryOp.logOp? : DeliveryOp D → Option (LogOp D)
  | .log op => some op
  | .pump => none

def Offer.event? : Offer D → Option (EventRecord D)
  | .event record => some record
  | _ => none

/-- The event log with the application of a service; pumps are for one connection. -/
structure Service (D : Type) where
  bootId : String
  connection : ℕ
  log : LogState D
  app : Subscriptions

namespace Service

def pump (s : Service D) : List (Offer D) × Service D :=
  let (offers, app) := s.app.pumpEvents s.log.log s.bootId s.connection
  (offers, { s with app })

def apply (s : Service D) : DeliveryOp D → List (Offer D) × Service D
  | .log op => ([], { s with log := s.log.step op })
  | .pump => s.pump

def run (s : Service D) (ops : List (DeliveryOp D)) : Service D :=
  History.after (fun s op => (s.apply op).2) s ops

/-- Everything the pumps of a run offered, in order. -/
def offered (s : Service D) : List (DeliveryOp D) → List (Offer D)
  | [] => []
  | op :: ops => (s.apply op).1 ++ (s.apply op).2.offered ops

/-- The events among it. -/
def delivered (s : Service D) (ops : List (DeliveryOp D)) : List (EventRecord D) :=
  (s.offered ops).filterMap Offer.event?

def subscription (s : Service D) : Option Subscription := s.app.subscriptions.get s.connection

theorem offered_append (s : Service D) (ops later : List (DeliveryOp D)) :
    s.offered (ops ++ later) = s.offered ops ++ (s.run ops).offered later := by
  induction ops generalizing s with
  | nil => rfl
  | cons op ops ih => simp [offered, ih, run]

/-! ### What a pump does -/

omit [EventData D] in
theorem pump_unsubscribed {s : Service D} (h : s.subscription = none) : s.pump = ([], s) := by
  have hget : s.app.subscriptions.get s.connection = none := h
  simp only [pump, Subscriptions.pumpEvents, hget]

omit [EventData D] in
/-- A position with an evicted record after it ends the subscription. -/
theorem pump_gap {s : Service D} {subscription : Subscription} (h : s.subscription = some subscription)
    {error : EventError} (hscan : s.log.log.scanAfter subscription.scan 32 = .error error) :
    s.pump.1 = [.error "event_gap"] ∧ s.pump.2.subscription = none ∧ s.pump.2.log = s.log := by
  have hget : s.app.subscriptions.get s.connection = some subscription := h
  simp only [pump, Subscriptions.pumpEvents, hget, hscan, Service.subscription]
  exact ⟨trivial, OrderedMap.get_remove_self _, trivial⟩

omit [EventData D] in
/-- Otherwise it moves the position and offers the matches of what it moved over, or the position. -/
theorem pump_scan {s : Service D} {history : List (EventRecord D)} (hlogs : s.log.log.Logs history)
    {subscription : Subscription} (h : s.subscription = some subscription)
    {events : List (EventRecord D)} (hscan : s.log.log.scanAfter subscription.scan 32 = .ok events) :
    ∃ k, subscription.scan ≤ k ∧ k ≤ history.length ∧
      s.pump.2.subscription = some { subscription with scan := k } ∧ s.pump.2.log = s.log ∧
      s.pump.1.filterMap Offer.event? =
        ((history.take k).drop subscription.scan).filter subscription.selects ∧
      (∀ code, Offer.error code ∉ s.pump.1) ∧
      ∀ token boot seq, Offer.progress token boot seq ∈ s.pump.1 → seq = k.repr ∧
        ((history.take k).drop subscription.scan).filter subscription.selects = [] := by
  have hget : s.app.subscriptions.get s.connection = some subscription := h
  have hexact := hlogs.scansExactly subscription.scan 32
  have hle : subscription.scan ≤ history.length := by
    have hfuture : ¬ s.log.log.latestCursor < subscription.scan := fun hlt => by
      rw [hexact.future.2 hlt] at hscan
      cases hscan
    rw [EventLog.latestCursor, hlogs.sequence] at hfuture
    omega
  have hevents : events = (history.drop subscription.scan).take 32 := by
    have hall := hlogs.numbered.filter_after 0 subscription.scan
    rw [List.drop_zero, max_eq_right (Nat.zero_le _)] at hall
    have hok := hexact.events (by rw [hscan]; simp) (by rw [hscan]; simp)
    rw [hscan, hall] at hok
    exact Except.ok.inj hok
  have hlen : events.length ≤ history.length - subscription.scan := by
    rw [hevents, List.length_take, List.length_drop]
    exact min_le_right _ _
  have hseqs : events.map EventRecord.seq =
      (List.range' (subscription.scan + 1) events.length).map Nat.repr := by
    rw [hevents, List.map_take, List.map_drop, hlogs.numbered.seqs, ← List.map_drop, ← List.map_take,
      List.drop_range', range'_take, List.length_take, List.length_drop, Nat.mul_one, Nat.add_comm 1]
  have hmax := hlogs.numbered.bounded
  obtain ⟨n, hn, hresult⟩ := scanEvents_spec subscription hseqs (by omega) []
  have hmatched : (events.take n).filter subscription.selects =
      ((history.take (subscription.scan + n)).drop subscription.scan).filter subscription.selects := by
    have hn32 : n ≤ 32 := by
      refine hn.trans ?_
      rw [hevents, List.length_take]
      exact min_le_left _ _
    rw [hevents, List.take_take, min_eq_left hn32, List.drop_take, Nat.add_sub_cancel_left]
  rw [List.nil_append, hmatched] at hresult
  refine ⟨subscription.scan + n, Nat.le_add_right _ _, by omega, ?_⟩
  have hpump : s.pump = (if (((history.take (subscription.scan + n)).drop subscription.scan).filter
        subscription.selects).isEmpty ∧ subscription.scan < subscription.scan + n then
        [.progress subscription.token s.bootId (subscription.scan + n).repr]
      else (((history.take (subscription.scan + n)).drop subscription.scan).filter
        subscription.selects).map .event,
      { s with app := { s.app with
        subscriptions := s.app.subscriptions.insert s.connection
          { subscription with scan := subscription.scan + n } } }) := by
    simp only [pump, Subscriptions.pumpEvents, hget, hscan, hresult]
    split_ifs <;> rfl
  rw [hpump]
  refine ⟨OrderedMap.get_insert_self _, rfl, ?_⟩
  dsimp only
  split_ifs with hnone
  · have hnil := List.isEmpty_iff.1 hnone.1
    refine ⟨?_, by simp, fun token boot seq hmem => ?_⟩
    · rw [hnil]
      rfl
    · obtain ⟨-, -, rfl⟩ := Offer.progress.inj (List.mem_singleton.1 hmem)
      exact ⟨rfl, hnil⟩
  · refine ⟨?_, by simp, fun token boot seq hmem => ?_⟩
    · rw [List.filterMap_map]
      exact List.filterMap_some ..
    · obtain ⟨e, -, he⟩ := List.mem_map.1 hmem
      cases he

/-! ### Runs after an accepted subscription -/

/-- The subscription's position, or the last one it had, with what was delivered up to it. -/
structure Delivers (s : Service D) (filter : Subscription) (history delivered : List (EventRecord D))
    (offered : List (Offer D)) (k : ℕ) : Prop where
  logs : s.log.log.Logs history
  sound : s.log.Sound
  after : filter.scan ≤ k
  within : k ≤ history.length
  delivered : delivered = ((history.take k).drop filter.scan).filter filter.selects
  subscribed : ∀ subscription, s.subscription = some subscription →
    subscription = { filter with scan := k } ∧ ∀ code, Offer.error code ∉ offered

omit [EventData D] in
theorem take_drop_append {l es : List (EventRecord D)} {k : ℕ} (h : k ≤ l.length) (c : ℕ) :
    ((l ++ es).take k).drop c = (l.take k).drop c := by
  rw [List.take_append_of_le_length h]

omit [EventData D] in
/-- A longer stretch is the shorter one and what was added to it. -/
theorem take_drop_between {l : List (EventRecord D)} {c k k' : ℕ} (hc : c ≤ k) (hk : k ≤ k') (hk' : k' ≤ l.length) :
    (l.take k').drop c = (l.take k).drop c ++ (l.take k').drop k := by
  have htake : (l.take k').take k = l.take k := by rw [List.take_take, min_eq_left hk]
  conv_lhs => rw [← List.take_append_drop k (l.take k'), htake]
  rw [List.drop_append_of_le_length (by rw [List.length_take]; omega)]

theorem Delivers.log_step {s : Service D} {filter : Subscription} {history delivered : List (EventRecord D)}
    {offered : List (Offer D)} {k : ℕ} (h : s.Delivers filter history delivered offered k) (op : LogOp D) :
    ({ s with log := s.log.step op } : Service D).Delivers filter (history ++ (s.log.apply op).2.2) delivered
      offered k := by
  obtain ⟨hpublishes, hsound⟩ := LogState.apply_spec h.sound op
  refine ⟨⟨⟨?_, ?_⟩, ?_, ?_⟩, hsound, h.after, ?_, ?_, h.subscribed⟩
  · rw [List.map_append, h.logs.numbered.seqs, hpublishes.seqs, h.logs.sequence, List.length_append,
      ← List.range'_append, List.map_append, Nat.one_mul, Nat.add_comm 1]
  · have hroom := hsound.room.1
    have hsequence := hpublishes.sequence
    rw [h.logs.sequence] at hsequence
    rw [List.length_append, ← hsequence]
    exact hroom
  · rw [List.length_append, ← h.logs.sequence]
    exact hpublishes.sequence
  · show (s.log.step op).log.ring = _
    rw [hpublishes.ring, h.logs.ring, EventLog.foldl_pushRing]
  · rw [List.length_append]
    exact h.within.trans (Nat.le_add_right _ _)
  · rw [take_drop_append h.within]
    exact h.delivered

omit [EventData D] in
theorem Delivers.pump_step {s : Service D} {filter : Subscription} {history delivered : List (EventRecord D)}
    {offered : List (Offer D)} {k : ℕ} (h : s.Delivers filter history delivered offered k) :
    ∃ k', s.pump.2.Delivers filter history (delivered ++ s.pump.1.filterMap Offer.event?)
      (offered ++ s.pump.1) k' := by
  cases hsub : s.subscription with
  | none =>
    rw [pump_unsubscribed hsub]
    refine ⟨k, h.logs, h.sound, h.after, h.within, ?_, fun subscription hnone => ?_⟩
    · rw [List.filterMap_nil, List.append_nil]
      exact h.delivered
    · rw [hsub] at hnone
      cases hnone
  | some subscription =>
    obtain ⟨rfl, hclean⟩ := h.subscribed subscription hsub
    cases hscan : s.log.log.scanAfter k 32 with
    | error error =>
      obtain ⟨hoffers, hremoved, hlog⟩ := pump_gap hsub hscan
      refine ⟨k, hlog ▸ h.logs, hlog ▸ h.sound, h.after, h.within, ?_, fun subscription hsome => ?_⟩
      · rw [hoffers]
        show delivered ++ [] = _
        rw [List.append_nil]
        exact h.delivered
      · rw [hremoved] at hsome
        cases hsome
    | ok events =>
      obtain ⟨k', hk, hwithin, hkept, hlog, hevents, herror, -⟩ := pump_scan h.logs hsub hscan
      refine ⟨k', hlog ▸ h.logs, hlog ▸ h.sound, h.after.trans hk, hwithin, ?_, fun subscription hsome => ?_⟩
      · rw [hevents, h.delivered, take_drop_between h.after hk hwithin, List.filter_append]
        rfl
      · rw [hkept] at hsome
        obtain rfl := Option.some.inj hsome
        refine ⟨rfl, fun code hmem => ?_⟩
        rcases List.mem_append.1 hmem with hmem | hmem
        · exact hclean code hmem
        · exact herror code hmem

def logOps (ops : List (DeliveryOp D)) : List (LogOp D) := ops.filterMap DeliveryOp.logOp?

theorem run_delivers {s : Service D} {filter : Subscription} {history delivered : List (EventRecord D)}
    {offered : List (Offer D)} {k : ℕ} (h : s.Delivers filter history delivered offered k)
    (ops : List (DeliveryOp D)) :
    ∃ k', (s.run ops).Delivers filter (history ++ s.log.published (logOps ops)) (delivered ++ s.delivered ops)
      (offered ++ s.offered ops) k' := by
  induction ops generalizing s history delivered offered k with
  | nil =>
    refine ⟨k, ?_⟩
    show s.Delivers filter (history ++ []) (delivered ++ []) (offered ++ []) k
    rw [List.append_nil, List.append_nil, List.append_nil]
    exact h
  | cons op ops ih =>
    cases op with
    | log op =>
      obtain ⟨k', hrest⟩ := ih (h.log_step op)
      refine ⟨k', ?_⟩
      rw [List.append_assoc] at hrest
      exact hrest
    | pump =>
      obtain ⟨k₁, hpump⟩ := h.pump_step
      obtain ⟨k', hrest⟩ := ih hpump
      have hlog : s.pump.2.log = s.log := rfl
      refine ⟨k', ?_⟩
      rw [hlog, List.append_assoc, List.append_assoc, Service.delivered, ← List.filterMap_append] at hrest
      exact hrest

omit [EventData D] in
/-- What an accepted subscription starts from. -/
theorem subscribe_accepted {app app' : Subscriptions} {log : EventLog D} {bootId : String} {connection : ℕ}
    {args : SubscribeArgs} {token : String}
    (h : app.subscribe log bootId connection args = .ok (token, app')) :
    app'.subscriptions.get connection = some ⟨token, args.seq, args.kinds, args.targets⟩ ∧
      args.seq ≤ log.latestCursor := by
  unfold Subscriptions.subscribe at h
  by_cases hbusy : app.subscriptions.contains connection = true
  · rw [if_pos hbusy] at h
    cases h
  rw [if_neg hbusy] at h
  by_cases hboot : args.bootId ≠ bootId
  · rw [if_pos hboot] at h
    cases h
  rw [if_neg hboot] at h
  cases hscan : log.scanAfter args.seq 1 with
  | error error => rw [hscan] at h; cases error <;> cases h
  | ok events =>
    rw [hscan] at h
    simp only at h
    split_ifs at h
    cases htoken : app.issueToken bootId with
    | error error => rw [htoken] at h; cases h
    | ok issued =>
      rw [htoken] at h
      obtain ⟨rfl, rfl⟩ := Prod.mk.inj (Except.ok.inj h)
      refine ⟨OrderedMap.get_insert_self _, ?_⟩
      by_contra hlt
      have hahead : log.sequence < args.seq := not_le.1 hlt
      rw [EventLog.scanAfter, if_pos hahead] at hscan
      cases hscan

local instance : EventData ℕ where
  hostStatus _ data := data
  encodedLength _ := some 64

def emptyRuntime : RuntimeView ℕ := ⟨none, fun _ => none, fun _ => none, fun _ => none, fun _ => none, fun _ => none⟩

/-- A host change among two configuration changes, under a filter for host events. -/
def hostOps : List (DeliveryOp ℕ) :=
  [.log (.configurationState 1 0), .log (.hostState 2 "ready" 7), .log (.configurationState 3 1), .pump]

end Service

end LabRuntime.Events
