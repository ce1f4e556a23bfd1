import LabRuntime.Events.Replay
import LabRuntime.Lib.Checks

/-! Runs of event-log operations after the boot identity is set, with everything they published.
The publication a preparation returns is held by its caller until it is committed or cancelled. -/

namespace LabRuntime.Events

variable {D : Type} [EventData D]

inductive LogOp (D : Type)
  | observe (runtime : RuntimeView D) (publishedAt : ℕ) (cause : Option (String × ℕ))
  | trackComponent (id : ComponentId)
  | trackController (id : ControllerId)
  | trackReference (id : ReferenceId)
  | prepare (runtime : RuntimeView D) (instruments : List InstrumentId) (controllers : List ControllerId)
  | cancel
  | commit (publishedAt : ℕ)
  | operationTerminal (publishedAt : ℕ) (scope : String) (seq : ℕ) (data : D)
  | hostState (publishedAt : ℕ) (state : String) (data : D)
  | recorderState (publishedAt : ℕ) (archiveId : Option String) (data : D)
  | resourceState (publishedAt : ℕ) (id : ResourceId) (data : D)
  | configurationState (publishedAt : ℕ) (data : D)

structure LogState (D : Type) where
  log : EventLog D
  publication : Option (PreparedEventPublication D)

namespace LogState

/-- The answer of a call, the state it leaves and the records it published. -/
def apply (s : LogState D) : LogOp D → Except EventError Unit × LogState D × List (EventRecord D)
  | .observe runtime publishedAt cause =>
    let (result, log, published) := s.log.observe runtime publishedAt cause
    (result, { s with log }, published)
  | .trackComponent id => (.ok (), { s with log := s.log.trackComponent id }, [])
  | .trackController id => (.ok (), { s with log := s.log.trackController id }, [])
  | .trackReference id => (.ok (), { s with log := s.log.trackReference id }, [])
  | .prepare runtime instruments controllers =>
    match s.log.prepareSimpleDevicePublication runtime instruments controllers with
    | (.error error, log) => (.error error, { s with log }, [])
    | (.ok publication, log) => (.ok (), ⟨log, some publication⟩, [])
  | .cancel =>
    match s.publication, s.log.cancelSimpleDevicePublication with
    | some _, some log => (.ok (), ⟨log, none⟩, [])
    | _, _ => (.ok (), s, [])
  | .commit publishedAt =>
    match s.publication with
    | none => (.ok (), s, [])
    | some publication =>
      match s.log.commitSimpleDevicePublication publication publishedAt with
      | some (log, published) => (.ok (), ⟨log, none⟩, published)
      | none => (.ok (), s, [])
  | .operationTerminal publishedAt scope seq data =>
    let (result, log, published) := s.log.operationTerminal publishedAt scope seq data
    (result, { s with log }, published)
  | .hostState publishedAt state data =>
    let (result, log, published) := s.log.hostState publishedAt state data
    (result, { s with log }, published)
  | .recorderState publishedAt archiveId data =>
    let (result, log, published) := s.log.recorderState publishedAt archiveId data
    (result, { s with log }, published)
  | .resourceState publishedAt id data =>
    let (result, log, published) := s.log.resourceState publishedAt id data
    (result, { s with log }, published)
  | .configurationState publishedAt data =>
    let (result, log, published) := s.log.configurationState publishedAt data
    (result, { s with log }, published)

def step (s : LogState D) (op : LogOp D) : LogState D := (s.apply op).2.1

def run (s : LogState D) (ops : List (LogOp D)) : LogState D := History.after step s ops

/-- Everything a run published, in order. -/
def published (s : LogState D) : List (LogOp D) → List (EventRecord D)
  | [] => []
  | op :: ops => (s.apply op).2.2 ++ (s.step op).published ops

theorem published_append (s : LogState D) (ops later : List (LogOp D)) :
    s.published (ops ++ later) = s.published ops ++ (s.run ops).published later := by
  induction ops generalizing s with
  | nil => rfl
  | cons op ops ih => simp [published, ih, run]

/-- The log composed from a runtime, whatever it did before its boot identity is set. -/
def start (runtime : RuntimeView D) (controllers : List ControllerId) (references : List ReferenceId)
    (composed : String) (before : List (LogOp D)) (bootId : String) : LogState D :=
  let s := run ⟨EventLog.new runtime controllers references composed, none⟩ before
  { s with log := s.log.setBootId bootId }

/-! ### The invariant -/

/-- A held publication owns its reservation and its records carry the facts they stand for. -/
def Held (s : LogState D) : Prop :=
  match s.publication, s.log.publicationReservation with
  | none, none => True
  | some p, some r => r.capacity = p.events.length ∧ ∀ e ∈ p.events, e.recordData = e.data
  | _, _ => False

structure Sound (s : LogState D) : Prop where
  tracked : s.log.Tracked
  room : s.log.Room
  held : s.Held

omit [EventData D] in
theorem Held.of_same {s s' : LogState D} (h : s.Held) (hp : s'.publication = s.publication)
    (hr : s'.log.publicationReservation = s.log.publicationReservation) : s'.Held := by
  unfold Held
  rw [hp, hr]
  exact h

/-! ### One call -/

theorem mem_sortByKey {ts : List Target} {t : Target} : t ∈ sortByKey ts ↔ t ∈ ts :=
  List.mem_insertionSort _

omit [EventData D] in
theorem publishes_track (log : EventLog D) (target : Target) : log.Publishes [] (log.track target) := by
  unfold EventLog.track
  split_ifs
  · exact EventLog.publishes_quiet rfl rfl rfl fun _ h => h
  · exact EventLog.publishes_quiet rfl rfl rfl fun _ h => mem_sortByKey.2 (List.mem_append_left _ h)

omit [EventData D] in
theorem track_frame (log : EventLog D) (target : Target) :
    (log.track target).sequence = log.sequence ∧
      (log.track target).publicationReservation = log.publicationReservation := by
  unfold EventLog.track
  split_ifs <;> exact ⟨rfl, rfl⟩

theorem mem_found {found targets : List Target} {t : Target} (h : t ∈ targets) :
    t ∈ found.foldl (fun targets t => if t ∈ targets then targets else targets ++ [t]) targets := by
  induction found generalizing targets with
  | nil => exact h
  | cons t' found ih =>
    rw [List.foldl_cons]
    apply ih
    split_ifs
    · exact h
    · exact List.mem_append_left _ h

omit [EventData D] in
theorem publishes_trackNewSignals (log : EventLog D) (runtime : RuntimeView D) :
    log.Publishes [] (log.trackNewSignals runtime) :=
  EventLog.publishes_quiet rfl rfl rfl fun _ h => mem_sortByKey.2 (mem_found h)

theorem observe_spec (log : EventLog D) (runtime : RuntimeView D) (publishedAt : ℕ)
    (cause : Option (String × ℕ)) (hroom : log.Room) :
    let out := log.observe runtime publishedAt cause
    log.Publishes out.2.2 out.2.1 ∧ out.2.1.Room ∧
      out.2.1.publicationReservation = log.publicationReservation := by
  obtain ⟨hpublishes, hroom', hreservation⟩ := EventLog.observeTargets_spec runtime publishedAt cause
    (log.trackNewSignals runtime).targets (log.trackNewSignals runtime) (fun _ h => h) hroom
  exact ⟨(publishes_trackNewSignals log runtime).trans hpublishes, hroom', hreservation⟩

theorem prepared_data {log : EventLog D} {runtime : RuntimeView D} {instruments : List InstrumentId}
    {controllers : List ControllerId} {events : List (PreparedEvent D)}
    (h : log.preparedEvents runtime instruments controllers = .ok events) :
    ∀ e ∈ events, e.recordData = e.data := by
  have hparameter : ∀ instrument p es, EventLog.preparedParameter runtime instrument p = .ok es →
      ∀ e ∈ es, e.recordData = e.data := fun instrument p es hes e he => by
    unfold EventLog.preparedParameter at hes
    cases hsignal : p.signal with
    | none =>
      rw [hsignal] at hes
      by_cases hrole : p.role = .actuator
      · cases hout : runtime.preparedSimpleOutput ⟨instrument, p.id⟩ with
        | none => simp [hrole, hout, bind, Except.bind] at hes
        | some data =>
          simp only [hrole, hout, bind, Except.bind, pure, Except.pure, if_true, Except.ok.injEq,
            List.nil_append] at hes
          obtain rfl := hes
          obtain rfl := List.mem_singleton.1 he
          rfl
      · simp only [hrole, bind, Except.bind, pure, Except.pure, if_false, Except.ok.injEq, List.nil_append] at hes
        obtain rfl := hes
        cases he
    | some signal =>
      cases hdata : runtime.preparedSimpleSignal signal with
      | none => simp [hsignal, hdata, bind, Except.bind] at hes
      | some sample =>
        rw [hsignal] at hes
        by_cases hrole : p.role = .actuator
        · cases hout : runtime.preparedSimpleOutput ⟨instrument, p.id⟩ with
          | none => simp [hdata, hrole, hout, bind, Except.bind] at hes
          | some data =>
            simp only [hdata, hrole, hout, bind, Except.bind, pure, Except.pure, if_true, Except.ok.injEq] at hes
            obtain rfl := hes
            rcases List.mem_append.1 he with he | he
            · obtain rfl := List.mem_singleton.1 he
              rfl
            · obtain rfl := List.mem_singleton.1 he
              rfl
        · simp only [hdata, hrole, bind, Except.bind, pure, Except.pure, if_false, Except.ok.injEq,
            List.append_nil] at hes
          obtain rfl := hes
          obtain rfl := List.mem_singleton.1 he
          rfl
  have hinstrument : ∀ instrument es, EventLog.preparedInstrument runtime instrument = .ok es →
      ∀ e ∈ es, e.recordData = e.data := fun instrument es hes e he => by
    unfold EventLog.preparedInstrument at hes
    cases hdescriptor : runtime.preparedSimpleDescriptor instrument with
    | none => rw [hdescriptor] at hes; cases hes
    | some descriptor =>
      rw [hdescriptor] at hes
      simp only at hes
      cases hmap : descriptor.parameters.mapM (EventLog.preparedParameter runtime instrument) with
      | error error => rw [hmap] at hes; cases hes
      | ok lists =>
        rw [hmap] at hes
        obtain rfl := Except.ok.inj hes
        obtain ⟨l, hl, he⟩ := List.mem_flatten.1 he
        obtain ⟨p, -, hp⟩ := Checks.mapM_mem hmap l hl
        exact hparameter instrument p l hp e he
  unfold EventLog.preparedEvents at h
  cases hdevices : instruments.mapM (EventLog.preparedInstrument runtime) with
  | error error => simp [hdevices, bind, Except.bind] at h
  | ok devices =>
    cases hcontrolled : controllers.mapM (EventLog.preparedController runtime) with
    | error error => simp [hdevices, hcontrolled, bind, Except.bind] at h
    | ok controlled =>
      simp only [hdevices, hcontrolled, bind, Except.bind, pure, Except.pure] at h
      split at h
      · cases h
      · obtain rfl := Except.ok.inj h
        intro e he
        rcases List.mem_append.1 ((List.mem_insertionSort _).1 he) with he | he
        · obtain ⟨l, hl, he⟩ := List.mem_flatten.1 he
          obtain ⟨instrument, -, hinst⟩ := Checks.mapM_mem hdevices l hl
          exact hinstrument instrument l hinst e he
        · obtain ⟨controller, -, hc⟩ := Checks.mapM_mem hcontrolled e he
          unfold EventLog.preparedController at hc
          cases hdata : runtime.preparedSimpleController controller with
          | none => rw [hdata] at hc; cases hc
          | some data =>
            rw [hdata] at hc
            obtain rfl := Except.ok.inj hc
            rfl

/-- A preparation changes nothing but its reservation, and that only when it succeeds. -/
theorem prepare_cases (log : EventLog D) (runtime : RuntimeView D) (instruments : List InstrumentId)
    (controllers : List ControllerId) :
    (∃ error, log.prepareSimpleDevicePublication runtime instruments controllers = (.error error, log)) ∨
      ∃ events, (∀ e ∈ events, e.recordData = e.data) ∧ log.sequence + events.length ≤ u64Max ∧
        log.prepareSimpleDevicePublication runtime instruments controllers =
          (.ok ⟨log.nextPublicationReservation, events⟩,
            { log with
              nextPublicationReservation := log.nextPublicationReservation + 1
              publicationReservation := some ⟨log.nextPublicationReservation, events.length⟩ }) := by
  unfold EventLog.prepareSimpleDevicePublication
  by_cases hheld : log.publicationReservation.isSome
  · exact .inl ⟨_, if_pos hheld⟩
  rw [if_neg hheld]
  cases hevents : log.preparedEvents runtime instruments controllers with
  | error error => exact .inl ⟨error, rfl⟩
  | ok events =>
    cases hroom : checkedAdd log.sequence events.length with
    | none => exact .inl ⟨.exhausted, by simp [hroom]⟩
    | some sum =>
      cases hnext : checkedAdd log.nextPublicationReservation 1 with
      | none => exact .inl ⟨.exhausted, by simp [hroom]⟩
      | some next =>
        obtain ⟨rfl, -⟩ := checkedAdd_eq_some.1 hnext
        exact .inr ⟨events, prepared_data hevents, (checkedAdd_eq_some.1 hroom).2, by simp [hroom]⟩

theorem apply_spec {s : LogState D} (h : s.Sound) (op : LogOp D) :
    s.log.Publishes (s.apply op).2.2 (s.step op).log ∧ (s.step op).Sound := by
  have hsame : s.log.Publishes [] s.log := EventLog.publishes_quiet rfl rfl rfl fun _ h => h
  have htrack : ∀ target, s.log.Publishes [] (s.log.track target) ∧
      Sound { s with log := s.log.track target } := fun target => by
    have hpublishes := publishes_track s.log target
    obtain ⟨hsequence, hreservation⟩ := track_frame s.log target
    refine ⟨hpublishes, (hpublishes.projected h.tracked).1, ?_, h.held.of_same rfl hreservation⟩
    exact ⟨hsequence ▸ h.room.1, fun r hr => hsequence ▸ h.room.2 r (hreservation ▸ hr)⟩
  have hannounce : ∀ publishedAt kind target data cause, kind ∉ projectedKinds →
      let out := s.log.announce publishedAt kind target data cause
      s.log.Publishes out.2.2 out.2.1 ∧ Sound { s with log := out.2.1 } :=
    fun publishedAt kind target data cause hkind => by
      obtain ⟨hpublishes, hroom, hreservation, -⟩ :=
        @EventLog.announce_spec _ _ s.log publishedAt kind target data cause hkind h.room
      exact ⟨hpublishes, (hpublishes.projected h.tracked).1, hroom, h.held.of_same rfl hreservation⟩
  cases op with
  | observe runtime publishedAt cause =>
    obtain ⟨hpublishes, hroom, hreservation⟩ := observe_spec s.log runtime publishedAt cause h.room
    exact ⟨hpublishes, (hpublishes.projected h.tracked).1, hroom, h.held.of_same rfl hreservation⟩
  | trackComponent id => exact htrack _
  | trackController id => exact htrack _
  | trackReference id => exact htrack _
  | prepare runtime instruments controllers =>
    obtain ⟨error, heq⟩ | ⟨events, hdata, hroom, heq⟩ := prepare_cases s.log runtime instruments controllers
    · simp only [step, apply, heq]
      exact ⟨hsame, h⟩
    · simp only [step, apply, heq]
      refine ⟨EventLog.publishes_quiet rfl rfl rfl fun _ h => h, h.tracked, ⟨h.room.1, fun r hr => ?_⟩, rfl, hdata⟩
      obtain rfl := Option.some.inj hr
      exact hroom
  | cancel =>
    cases hp : s.publication with
    | none =>
      simp only [step, apply, hp]
      exact ⟨hsame, h⟩
    | some p =>
      simp only [step, apply, hp, EventLog.cancelSimpleDevicePublication]
      split_ifs with hr
      · exact ⟨EventLog.publishes_quiet rfl rfl rfl fun _ h => h, h.tracked,
          ⟨h.room.1, fun r hr => (by cases hr)⟩, trivial⟩
      · exact ⟨hsame, h⟩
  | commit publishedAt =>
    cases hp : s.publication with
    | none =>
      simp only [step, apply, hp]
      exact ⟨hsame, h⟩
    | some p =>
      have hheld := h.held
      unfold Held at hheld
      rw [hp] at hheld
      cases hr : s.log.publicationReservation with
      | none => rw [hr] at hheld; exact hheld.elim
      | some r =>
        rw [hr] at hheld
        obtain ⟨hcapacity, hdata⟩ := hheld
        have hroom : s.log.sequence + p.events.length ≤ u64Max := hcapacity ▸ h.room.2 r hr
        obtain ⟨log', es, hcommit, hpublishes, hsequence, hreservation⟩ :=
          EventLog.commitEvents_spec publishedAt p.events { s.log with publicationReservation := none } hdata hroom
        have hstart : s.log.Publishes [] { s.log with publicationReservation := none } :=
          EventLog.publishes_quiet rfl rfl rfl fun _ h => h
        have hsort : log'.Publishes [] { log' with targets := sortByKey log'.targets } :=
          EventLog.publishes_quiet rfl rfl rfl fun _ h => mem_sortByKey.2 h
        have hall := (hstart.trans hpublishes).trans hsort
        rw [List.append_nil] at hall
        simp only [step, apply, hp, EventLog.commitSimpleDevicePublication, hr, Option.isSome_some, if_true,
          hcommit, Option.map_some]
        refine ⟨hall, (hall.projected h.tracked).1, ⟨?_, fun r hr => ?_⟩, ?_⟩
        · exact hsequence.trans_le hroom
        · exact absurd (hreservation.symm.trans hr) (by simp)
        · show Held _
          unfold Held
          simp only [hreservation]
  | operationTerminal publishedAt scope seq data => exact hannounce _ _ _ _ _ (by decide)
  | hostState publishedAt state data => exact hannounce _ _ _ _ _ (by decide)
  | recorderState publishedAt archiveId data => exact hannounce _ _ _ _ _ (by decide)
  | resourceState publishedAt id data => exact hannounce _ _ _ _ _ (by decide)
  | configurationState publishedAt data => exact hannounce _ _ _ _ _ (by decide)

/-- What one call does to the log, a run does: everything published, and soundness. -/
theorem run_spec {s : LogState D} (h : s.Sound) (ops : List (LogOp D)) :
    s.log.Publishes (s.published ops) (s.run ops).log ∧ (s.run ops).Sound := by
  induction ops generalizing s with
  | nil => exact ⟨EventLog.publishes_quiet rfl rfl rfl fun _ h => h, h⟩
  | cons op ops ih =>
    obtain ⟨hfirst, hsound⟩ := apply_spec h op
    obtain ⟨hrest, hend⟩ := ih hsound
    exact ⟨hfirst.trans hrest, hend⟩

end LogState

/-! ### Numbered histories -/

theorem parseU64_repr {n : ℕ} (h : n ≤ u64Max) : parseU64 n.repr = some n := by
  have hdigits : ∀ rest, n.repr.toList ≠ '+' :: rest := fun rest heq =>
    Decimal.not_mem_of_not_isDigit (n := n) (c := '+') (by decide) (by rw [heq]; exact List.mem_cons_self)
  have hvalue : Nat.ofDigitChars 10 n.repr.toList 0 = n := by rw [Nat.toList_repr]; simp
  unfold parseU64
  split
  rename_i heq
  · exact absurd heq (hdigits _)
  · have hempty : n.repr.toList.isEmpty = false := List.isEmpty_eq_false_iff.2 (Decimal.toList_ne_nil n)
    rw [if_neg (by rw [hempty, Decimal.all_isDigit]; decide), hvalue, if_pos h]

/-- The record is one after the cursor. -/
def After (cursor : ℕ) (record : EventRecord D) : Bool := (parseU64 record.seq).any (cursor < ·)

/-- Records numbered from one, as everything published since the boot identity is. -/
structure Numbered (history : List (EventRecord D)) : Prop where
  seqs : history.map EventRecord.seq = (List.range' 1 history.length).map Nat.repr
  bounded : history.length ≤ u64Max

namespace Numbered

omit [EventData D]

variable {history : List (EventRecord D)}

theorem parse (h : Numbered history) :
    history.map (fun e => parseU64 e.seq) = (List.range' 1 history.length).map some := by
  have hmap : history.map (fun e => parseU64 e.seq) = (history.map EventRecord.seq).map parseU64 := by
    rw [List.map_map]
    rfl
  rw [hmap, h.seqs, List.map_map]
  refine List.map_congr_left fun n hn => parseU64_repr ?_
  have hle := (List.mem_range'_1.1 hn).2
  have hmax := h.bounded
  omega

theorem after_take (h : Numbered history) {cursor : ℕ} {e : EventRecord D} (he : e ∈ history.take cursor) :
    After cursor e = false := by
  have hmem := List.mem_map_of_mem (f := fun e : EventRecord D => parseU64 e.seq) he
  rw [List.map_take, h.parse, ← List.map_take] at hmem
  obtain ⟨n, hn, heq⟩ := List.mem_map.1 hmem
  obtain ⟨i, hi, rfl⟩ := List.mem_iff_getElem.1 hn
  rw [List.length_take] at hi
  rw [After, ← heq]
  simp only [List.getElem_take, List.getElem_range', Option.any_some, decide_eq_false_iff_not]
  omega

theorem after_drop (h : Numbered history) {cursor : ℕ} {e : EventRecord D} (he : e ∈ history.drop cursor) :
    After cursor e = true := by
  have hmem := List.mem_map_of_mem (f := fun e : EventRecord D => parseU64 e.seq) he
  rw [List.map_drop, h.parse, ← List.map_drop] at hmem
  obtain ⟨n, hn, heq⟩ := List.mem_map.1 hmem
  obtain ⟨i, hi, rfl⟩ := List.mem_iff_getElem.1 hn
  rw [After, ← heq]
  simp only [List.getElem_drop, List.getElem_range', Option.any_some, decide_eq_true_eq]
  omega

/-- Of a tail of the history, the records after a cursor are a tail. -/
theorem filter_after (h : Numbered history) (k cursor : ℕ) :
    (history.drop k).filter (After cursor) = history.drop (max k cursor) := by
  by_cases hle : cursor ≤ k
  · rw [max_eq_left hle]
    refine List.filter_eq_self.2 fun e he => h.after_drop ?_
    have hdrop : history.drop k = (history.drop cursor).drop (k - cursor) := by
      rw [List.drop_drop]
      congr 1
      omega
    rw [hdrop] at he
    exact List.mem_of_mem_drop he
  · rw [max_eq_right (by omega)]
    have hsplit : history.drop k = (history.take cursor).drop k ++ history.drop cursor := by
      conv_lhs => rw [← List.take_append_drop cursor history]
      by_cases hlen : k ≤ (history.take cursor).length
      · rw [List.drop_append_of_le_length hlen]
      · rw [List.length_take] at hlen
        have hshort : history.length ≤ k := by omega
        rw [List.take_append_drop, List.drop_eq_nil_of_le hshort,
          List.drop_eq_nil_of_le (by rw [List.length_take]; omega), List.drop_eq_nil_of_le (by omega)]
        rfl
    rw [hsplit, List.filter_append, List.filter_eq_nil_iff.2, List.filter_eq_self.2 fun e he => h.after_drop he,
      List.nil_append]
    intro e he
    simp [h.after_take (List.mem_of_mem_drop he)]

end Numbered

namespace EventLog

omit [EventData D]

theorem foldl_pushRing (history es : List (EventRecord D)) :
    es.foldl pushRing (Window.last eventRingLimit history) = Window.last eventRingLimit (history ++ es) := by
  induction es generalizing history with
  | nil => rw [List.append_nil, List.foldl_nil]
  | cons e es ih =>
    have hpush : pushRing (Window.last eventRingLimit history) e = Window.last eventRingLimit (history ++ [e]) :=
      Window.push eventRingLimit history (by decide) e
    rw [List.foldl_cons, hpush, ih, List.append_assoc, List.singleton_append]

/-- The log after everything published since its boot identity was set. -/
structure Logs (log : EventLog D) (history : List (EventRecord D)) : Prop where
  numbered : Numbered history
  sequence : log.sequence = history.length
  ring : log.ring = Window.last eventRingLimit history

variable {log : EventLog D} {history : List (EventRecord D)}

theorem Logs.length_ring (h : log.Logs history) : log.ring.length = min eventRingLimit history.length := by
  rw [h.ring, Window.length_last]

/-- Complete replay is possible from the last evicted number on. -/
theorem Logs.oldestCursor (h : log.Logs history) : log.oldestCursor = history.length - eventRingLimit := by
  have hparse := h.numbered.parse
  rw [EventLog.oldestCursor, h.ring, h.sequence, Window.last]
  cases hhead : (history.drop (history.length - eventRingLimit)).head? with
  | none =>
    have hnil := List.head?_eq_none_iff.1 hhead
    have hlen := List.drop_eq_nil_iff.1 hnil
    have hpos : 0 < eventRingLimit := by decide
    simp only [Option.bind_none, Option.getD_none]
    omega
  | some v =>
    rw [List.head?_drop] at hhead
    have hv : parseU64 v.seq = some (history.length - eventRingLimit + 1) := by
      have hget := congrArg (·[history.length - eventRingLimit]?) hparse
      simp only [List.getElem?_map, hhead, Option.map_some] at hget
      obtain ⟨hi, -⟩ := List.getElem?_eq_some_iff.1 hhead
      rw [List.getElem?_eq_getElem (by rw [List.length_range']; exact hi)] at hget
      simp only [List.getElem_range', Option.map_some, Option.some.injEq] at hget
      rw [hget, Nat.one_mul, Nat.add_comm]
    simp [hv]

/-- The retained records after a cursor. -/
def eventsAfter (log : EventLog D) (cursor : ℕ) : List (EventRecord D) := log.ring.filter (After cursor)

theorem Logs.eventsAfter (h : log.Logs history) {cursor : ℕ} (hgap : log.oldestCursor ≤ cursor) :
    log.eventsAfter cursor = history.drop cursor := by
  rw [h.oldestCursor] at hgap
  rw [EventLog.eventsAfter, h.ring, Window.last, h.numbered.filter_after, max_eq_right hgap]

/-- What a scan answers, against everything that was published. -/
structure ScansExactly (log : EventLog D) (history : List (EventRecord D)) (cursor limit : ℕ) : Prop where
  future : log.scanAfter cursor limit = .error .future ↔ log.latestCursor < cursor
  gap : ∃ evicted, history = evicted ++ log.ring ∧
    (log.scanAfter cursor limit = .error .gap ↔ ∃ e ∈ evicted, After cursor e = true)
  events : log.scanAfter cursor limit ≠ .error .future → log.scanAfter cursor limit ≠ .error .gap →
    log.scanAfter cursor limit = .ok ((history.filter (After cursor)).take (min limit 32))

theorem Logs.scansExactly (h : log.Logs history) (cursor limit : ℕ) : log.ScansExactly history cursor limit := by
  have hscan : log.scanAfter cursor limit =
      if history.length < cursor then .error .future
      else if cursor < history.length - eventRingLimit then .error .gap
      else .ok ((log.eventsAfter cursor).take (min limit 32)) := by
    rw [scanAfter, h.sequence, h.oldestCursor]
    rfl
  have hall : history.filter (After cursor) = history.drop cursor := by
    have hfilter := h.numbered.filter_after 0 cursor
    rwa [List.drop_zero, max_eq_right (Nat.zero_le _)] at hfilter
  refine ⟨?_, ⟨history.take (history.length - eventRingLimit), ?_, ?_⟩, fun hfuture hgap => ?_⟩
  · rw [hscan, latestCursor, h.sequence]
    split_ifs <;> simp_all
  · rw [h.ring, Window.last, List.take_append_drop]
  · have hevicted : (∃ e ∈ history.take (history.length - eventRingLimit), After cursor e = true) ↔
        cursor < history.length - eventRingLimit := by
      constructor
      · rintro ⟨e, he, hafter⟩
        by_contra hle
        have hmem : e ∈ history.take cursor :=
          (List.take_sublist_take_left (by omega : history.length - eventRingLimit ≤ cursor)).subset he
        rw [h.numbered.after_take hmem] at hafter
        cases hafter
      · intro hlt
        have hlast : history.length - eventRingLimit - 1 < history.length := by omega
        refine ⟨history[history.length - eventRingLimit - 1], ?_, h.numbered.after_drop ?_⟩
        · exact List.mem_take_iff_getElem.2 ⟨_, by omega, rfl⟩
        · exact List.mem_drop_iff_getElem.2 ⟨history.length - eventRingLimit - 1 - cursor, by omega,
            getElem_congr_idx (by omega)⟩
    rw [hevicted, hscan]
    split_ifs with hf hg
    · simp only [reduceCtorEq, Except.error.injEq, false_iff]
      omega
    · simp [hg]
    · simp [hg]
  · rw [hscan] at hfuture hgap ⊢
    split_ifs at hfuture hgap ⊢ with hf hg
    · exact absurd rfl hfuture
    · exact absurd rfl hgap
    · rw [hall, h.eventsAfter (by rw [h.oldestCursor]; omega)]

end EventLog

namespace LogState

omit [EventData D] in
theorem new_sound (runtime : RuntimeView D) (controllers : List ControllerId) (references : List ReferenceId)
    (composed : String) : Sound (⟨EventLog.new runtime controllers references composed, none⟩ : LogState D) := by
  refine ⟨fun t ht => ?_, ⟨Nat.zero_le _, fun r hr => (by cases hr)⟩, trivial⟩
  by_contra hmem
  have hkeys : ∀ e ∈ (EventLog.new runtime controllers references composed).targets.filterMap fun t =>
      (runtime.query t).map fun v => (t.key, v), e.1 ≠ t.key := fun e he heq => by
    obtain ⟨t', ht', hmap⟩ := List.mem_filterMap.1 he
    obtain ⟨v, -, rfl⟩ := Option.map_eq_some_iff.1 hmap
    obtain rfl := Target.key_injective heq
    exact hmem ht'
  have hnone : (EventLog.new runtime controllers references composed).facts.get t.key = none :=
    OrderedMap.get_extend_of_not_mem OrderedMap.empty hkeys
  have hsome : ((EventLog.new runtime controllers references composed).facts.get t.key).isSome = true := ht
  rw [hnone] at hsome
  cases hsome

theorem start_sound (runtime : RuntimeView D) (controllers : List ControllerId) (references : List ReferenceId)
    (composed : String) (before : List (LogOp D)) (bootId : String) :
    (start runtime controllers references composed before bootId).Sound := by
  have h := (run_spec (new_sound runtime controllers references composed) before).2
  refine ⟨h.tracked, ⟨Nat.zero_le _, fun r hr => ?_⟩, h.held.of_same rfl rfl⟩
  have hheld := h.room.2 r hr
  show 0 + r.capacity ≤ _
  omega

/-- After any run the log is the one its published records make. -/
theorem run_logs (runtime : RuntimeView D) (controllers : List ControllerId) (references : List ReferenceId)
    (composed : String) (before : List (LogOp D)) (bootId : String) (ops : List (LogOp D)) :
    let s := start runtime controllers references composed before bootId
    (s.run ops).log.Logs (s.published ops) ∧ (s.run ops).Sound := by
  intro s
  obtain ⟨hpublishes, hsound⟩ :=
    run_spec (start_sound runtime controllers references composed before bootId) ops
  have hsequence : (s.run ops).log.sequence = (s.published ops).length := by
    rw [hpublishes.sequence]
    exact Nat.zero_add _
  refine ⟨⟨⟨hpublishes.seqs, hsequence ▸ hsound.room.1⟩, hsequence, ?_⟩, hsound⟩
  have hstart : s.log.ring = Window.last eventRingLimit [] := by
    rw [Window.last, List.drop_nil]
    rfl
  rw [hpublishes.ring, hstart, EventLog.foldl_pushRing, List.nil_append]

/-- A failing call published nothing and left the state, or is an observation that had completed
some of its targets: then it left what observing just those leaves. -/
def FailsCleanly (s : LogState D) : LogOp D → Prop
  | .observe runtime publishedAt cause =>
    let log := s.log.trackNewSignals runtime
    let op := .observe runtime publishedAt cause
    ∃ completed t rest, log.targets = completed ++ t :: rest ∧
      EventLog.observeTargets runtime publishedAt cause completed log =
        (.ok (), (s.step op).log, (s.apply op).2.2)
  | op => (s.apply op).2.2 = [] ∧ s.step op = s

theorem failsCleanly {s : LogState D} (h : s.Sound) {op : LogOp D} {error : EventError}
    (herror : (s.apply op).1 = .error error) : s.FailsCleanly op := by
  have hannounce : ∀ publishedAt kind target data cause, kind ∉ projectedKinds →
      (s.log.announce publishedAt kind target data cause).1 = .error error →
      (s.log.announce publishedAt kind target data cause).2 = (s.log, []) :=
    fun publishedAt kind target data cause hkind h' => (EventLog.announce_spec hkind h.room).2.2.2 error h'
  cases op with
  | observe runtime publishedAt cause => exact EventLog.observeTargets_error herror
  | trackComponent id => cases herror
  | trackController id => cases herror
  | trackReference id => cases herror
  | prepare runtime instruments controllers =>
    obtain ⟨error', heq⟩ | ⟨events, -, -, heq⟩ := prepare_cases s.log runtime instruments controllers
    · simp only [FailsCleanly, step, apply, heq]
      trivial
    · simp only [apply, heq] at herror
      cases herror
  | cancel =>
    simp only [apply] at herror
    split at herror <;> cases herror
  | commit publishedAt =>
    simp only [apply] at herror
    split at herror
    · cases herror
    · split at herror <;> cases herror
  | operationTerminal publishedAt scope seq data =>
    have heq := hannounce _ _ _ _ _ (by decide) herror
    simp only [FailsCleanly, step, apply, EventLog.operationTerminal, heq]
    trivial
  | hostState publishedAt state data =>
    have heq := hannounce _ _ _ _ _ (by decide) herror
    simp only [FailsCleanly, step, apply, EventLog.hostState, heq]
    trivial
  | recorderState publishedAt archiveId data =>
    have heq := hannounce _ _ _ _ _ (by decide) herror
    simp only [FailsCleanly, step, apply, EventLog.recorderState, heq]
    trivial
  | resourceState publishedAt id data =>
    have heq := hannounce _ _ _ _ _ (by decide) herror
    simp only [FailsCleanly, step, apply, EventLog.resourceState, heq]
    trivial
  | configurationState publishedAt data =>
    have heq := hannounce _ _ _ _ _ (by decide) herror
    simp only [FailsCleanly, step, apply, EventLog.configurationState, heq]
    trivial

/-- Replaying events over a frozen projection reproduces the current projection. -/
theorem events_reproduce_projection (runtime : RuntimeView D) (controllers : List ControllerId)
    (references : List ReferenceId) (composed : String) (before : List (LogOp D)) (bootId : String)
    (ops later : List (LogOp D)) :
    let s₀ := start runtime controllers references composed before bootId
    let s := s₀.run ops
    let s' := s₀.run (ops ++ later)
    (s.log.ring.length ≤ eventRingLimit ∧ s.log.ring.map (fun e => parseU64 e.seq) =
      (List.range' (s.log.latestCursor + 1 - s.log.ring.length) s.log.ring.length).map some) ∧
    (∀ cursor limit, s.log.ScansExactly (s₀.published ops) cursor limit) ∧
    (∀ limit, s'.log.scanAfter s.log.latestCursor limit ≠ .error .gap →
      s'.log.eventsAfter s.log.latestCursor = s.published later ∧
      replay s.log.projection (s'.log.eventsAfter s.log.latestCursor) = s'.log.projection) ∧
    ∀ op error, (s.apply op).1 = .error error → s.FailsCleanly op := by
  intro s₀ s s'
  obtain ⟨hlogs, hsound⟩ : s.log.Logs (s₀.published ops) ∧ s.Sound :=
    run_logs runtime controllers references composed before bootId ops
  obtain ⟨hlogs', -⟩ : s'.log.Logs (s₀.published (ops ++ later)) ∧ s'.Sound :=
    run_logs runtime controllers references composed before bootId (ops ++ later)
  have hs' : s' = s.run later := History.after_append ..
  have hcursor : s.log.latestCursor = (s₀.published ops).length := hlogs.sequence
  refine ⟨⟨?_, ?_⟩, hlogs.scansExactly, fun limit hgap => ?_, fun op error => failsCleanly hsound⟩
  · rw [hlogs.length_ring]
    exact min_le_left _ _
  · have hlen := hlogs.length_ring
    have hfirst : 1 + ((s₀.published ops).length - eventRingLimit) * 1 =
        (s₀.published ops).length + 1 - min eventRingLimit (s₀.published ops).length := by omega
    have hcount : (s₀.published ops).length - ((s₀.published ops).length - eventRingLimit) =
        min eventRingLimit (s₀.published ops).length := by omega
    rw [hcursor, hlen, hlogs.ring, Window.last, List.map_drop, hlogs.numbered.parse, ← List.map_drop,
      List.drop_range', hfirst, hcount]
  · have hcover : s'.log.oldestCursor ≤ s.log.latestCursor := by
      by_contra hlt
      have hle : s.log.latestCursor ≤ s'.log.sequence := by
        rw [hlogs'.sequence, hcursor, published_append, List.length_append]
        omega
      exact hgap (by rw [EventLog.scanAfter, if_neg (by omega), if_pos (by omega)])
    have hevents : s'.log.eventsAfter s.log.latestCursor = s.published later := by
      rw [hlogs'.eventsAfter hcover, published_append, hcursor, List.drop_left]
    refine ⟨hevents, ?_⟩
    rw [hevents, hs']
    exact (((run_spec hsound later).1).projected hsound.tracked).2.symm

end LogState

end LabRuntime.Events
