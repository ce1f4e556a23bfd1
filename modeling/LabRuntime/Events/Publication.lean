import LabRuntime.Events.Encoding
import LabRuntime.Events.Run

/-! A held publication, from its preparation to its commit or its cancellation, over whatever the
log does in between. Capacity is held by arithmetic on the sequence; the identity of the prepared
targets is checked when they are prepared and not again. -/

namespace LabRuntime.Events

variable {D : Type}

/-! ### What a batch has passed -/

/-- The records of a batch, numbered on from a sequence. -/
def batchRecords (bootId : String) (publishedAt : ℕ) : ℕ → List (PreparedEvent D) → List (EventRecord D)
  | _, [] => []
  | sequence, event :: events =>
    eventRecord bootId (sequence + 1) publishedAt event.target.kind event.target.id event.recordData none ::
      batchRecords bootId publishedAt (sequence + 1) events

/-- In a sorted list, neighbours that differ make all elements differ. -/
theorem nodup_of_neighbours {α : Type*} [LinearOrder α] {l : List α} (sorted : l.Pairwise (· ≤ ·))
    (h : ∀ p ∈ l.zip l.tail, p.1 ≠ p.2) : l.Nodup := by
  have hlt : l.Pairwise (· < ·) := by
    induction l with
    | nil => exact List.Pairwise.nil
    | cons a l ih =>
      obtain ⟨ha, hl⟩ := List.pairwise_cons.1 sorted
      cases l with
      | nil => exact List.pairwise_singleton _ _
      | cons b l =>
        have hrest := ih hl fun p hp => h p (List.mem_cons_of_mem _ hp)
        have hab : a < b := lt_of_le_of_ne (ha b List.mem_cons_self) (h (a, b) List.mem_cons_self)
        refine List.pairwise_cons.2 ⟨fun c hc => ?_, hrest⟩
        rcases List.mem_cons.1 hc with rfl | hc
        · exact hab
        · exact hab.trans ((List.pairwise_cons.1 hrest).1 c hc)
  exact hlt.imp fun hlt => hlt.ne

namespace EventLog

section Prepare

variable [EventData D]

/-- What the checks on a batch establish. -/
structure Checked (log : EventLog D) (events : List (PreparedEvent D)) : Prop where
  distinct : (events.map PreparedEvent.target).Nodup
  untracked : ∀ e ∈ events, e.target ∉ log.targets
  bounded : ∀ e ∈ events, validateRecordBound log.bootId e.target e.data = .ok ()
  same : ∀ e ∈ events, e.recordData = e.data

theorem checkPrepared_ok {log : EventLog D} {events : List (PreparedEvent D)}
    (h : log.checkPrepared events = .ok ()) :
    (∀ p ∈ events.zip events.tail, p.1.target.key ≠ p.2.target.key) ∧
      ∀ e ∈ events, e.target ∉ log.targets ∧ validateRecordBound log.bootId e.target e.data = .ok () := by
  unfold checkPrepared at h
  split_ifs at h with hpairs
  · cases h
  have hloop : ∀ (rest : List (PreparedEvent D)) (u : PUnit),
      (forIn rest u fun event _ => do
        if log.targets.any fun t => t.key = event.target.key then throw EventError.reservation
        validateRecordBound log.bootId event.target event.data
        pure (ForInStep.yield PUnit.unit)) = Except.ok u →
      ∀ e ∈ rest, e.target ∉ log.targets ∧ validateRecordBound log.bootId e.target e.data = .ok () := by
    intro rest
    induction rest with
    | nil => exact fun _ _ e he => (by cases he)
    | cons event rest ih =>
      intro u hrun
      rw [List.forIn_cons] at hrun
      by_cases htracked : (log.targets.any fun t => t.key = event.target.key) = true
      · rw [if_pos htracked] at hrun
        cases hrun
      · rw [if_neg htracked] at hrun
        cases hbound : validateRecordBound log.bootId event.target event.data with
        | error error =>
          rw [hbound] at hrun
          cases hrun
        | ok bound =>
          rw [hbound] at hrun
          intro e he
          rcases List.mem_cons.1 he with rfl | he
          · refine ⟨fun hmem => htracked ?_, hbound⟩
            exact List.any_eq_true.2 ⟨e.target, hmem, by simp⟩
          · exact ih u hrun e he
  obtain ⟨u, hrun, -⟩ := Checks.bind_ok.1 h
  refine ⟨fun p hp heq => hpairs ?_, hloop events u hrun⟩
  exact List.any_eq_true.2 ⟨p, hp, by simpa using heq⟩

theorem preparedEvents_checked {log : EventLog D} {runtime : RuntimeView D} {instruments : List InstrumentId}
    {controllers : List ControllerId} {events : List (PreparedEvent D)}
    (h : log.preparedEvents runtime instruments controllers = .ok events) : log.Checked events := by
  have hsame := LogState.prepared_data h
  unfold preparedEvents at h
  obtain ⟨devices, -, h⟩ := Checks.bind_ok.1 h
  obtain ⟨controlled, -, h⟩ := Checks.bind_ok.1 h
  obtain ⟨⟨⟩, hchecked, h⟩ := Checks.bind_ok.1 h
  have heq := Checks.pure_ok.1 h
  rw [heq] at hchecked
  obtain ⟨hneighbours, heach⟩ := checkPrepared_ok hchecked
  have hsorted : (events.map fun e => e.target.key).Pairwise (· ≤ ·) := by
    rw [List.pairwise_map, ← heq]
    exact List.pairwise_insertionSort (fun a b : PreparedEvent D => a.target.key ≤ b.target.key) _
  have hkeys : (events.map fun e => e.target.key).Nodup := by
    refine nodup_of_neighbours hsorted fun p hp => ?_
    rw [← List.map_tail, List.zip_map] at hp
    obtain ⟨q, hq, rfl⟩ := List.mem_map.1 hp
    exact hneighbours q hq
  have hdistinct : (events.map PreparedEvent.target).Nodup := by
    have hmap : events.map (fun e => e.target.key) = (events.map PreparedEvent.target).map Target.key := by
      rw [List.map_map]
      rfl
    rw [hmap] at hkeys
    exact hkeys.of_map _
  exact ⟨hdistinct, fun e he => (heach e he).1, fun e he => (heach e he).2, hsame⟩

/-- A preparation that succeeds found no reservation, and holds the capacity of a checked batch. -/
theorem prepare_ok {log log' : EventLog D} {runtime : RuntimeView D} {instruments : List InstrumentId}
    {controllers : List ControllerId} {publication : PreparedEventPublication D}
    (h : log.prepareSimpleDevicePublication runtime instruments controllers = (.ok publication, log')) :
    log.publicationReservation = none ∧ log.Checked publication.events ∧
      log.sequence + publication.events.length ≤ u64Max ∧
      log' = { log with
        nextPublicationReservation := log.nextPublicationReservation + 1
        publicationReservation := some ⟨log.nextPublicationReservation, publication.events.length⟩ } := by
  unfold prepareSimpleDevicePublication at h
  by_cases hheld : log.publicationReservation.isSome
  · rw [if_pos hheld] at h
    cases (Prod.mk.inj h).1
  rw [if_neg hheld] at h
  have hnone : log.publicationReservation = none := by simpa using hheld
  cases hevents : log.preparedEvents runtime instruments controllers with
  | error error =>
    rw [hevents] at h
    cases (Prod.mk.inj h).1
  | ok events =>
    rw [hevents] at h
    cases hroom : checkedAdd log.sequence events.length with
    | none =>
      simp only [hroom, Option.isNone_none, if_true] at h
      cases (Prod.mk.inj h).1
    | some sum =>
      cases hnext : checkedAdd log.nextPublicationReservation 1 with
      | none =>
        simp only [hroom, hnext, Option.isNone_some, Bool.false_eq_true, if_false] at h
        cases (Prod.mk.inj h).1
      | some next =>
        simp only [hroom, hnext, Option.isNone_some, Bool.false_eq_true, if_false] at h
        obtain ⟨hpublication, hlog⟩ := Prod.mk.inj h
        obtain rfl := Except.ok.inj hpublication
        obtain ⟨rfl, -⟩ := checkedAdd_eq_some.1 hnext
        exact ⟨hnone, preparedEvents_checked hevents, (checkedAdd_eq_some.1 hroom).2, hlog.symm⟩

end Prepare

/-! ### Committing -/

/-- A commit with room appends exactly its batch. -/
theorem commitEvents_exact (publishedAt : ℕ) (events : List (PreparedEvent D)) (log : EventLog D)
    (hroom : log.sequence + events.length ≤ u64Max) :
    commitEvents publishedAt events log = some ({ log with
        sequence := log.sequence + events.length
        ring := (batchRecords log.bootId publishedAt log.sequence events).foldl pushRing log.ring
        targets := log.targets ++ events.map PreparedEvent.target
        facts := log.facts.extend (events.map fun e => (e.target.key, e.data)) },
      batchRecords log.bootId publishedAt log.sequence events) := by
  induction events generalizing log with
  | nil => simp [commitEvents, batchRecords, OrderedMap.extend]
  | cons e events ih =>
    rw [List.length_cons] at hroom
    have hnext : checkedAdd log.sequence 1 = some (log.sequence + 1) := checkedAdd_eq_some.2 ⟨rfl, by omega⟩
    let record := eventRecord log.bootId (log.sequence + 1) publishedAt e.target.kind e.target.id e.recordData none
    let log₁ : EventLog D := { log.publish (log.sequence + 1) record with
      targets := log.targets ++ [e.target]
      facts := log.facts.insert e.target.key e.data }
    have hroom₁ : log₁.sequence + events.length ≤ u64Max := by
      show log.sequence + 1 + events.length ≤ _
      omega
    have hrest := ih log₁ hroom₁
    have hlength : log.sequence + 1 + events.length = log.sequence + (events.length + 1) := by omega
    simp only [commitEvents, hnext]
    refine (congrArg (Option.map fun out => (out.1, record :: out.2)) hrest).trans ?_
    simp [batchRecords, log₁, record, publish, OrderedMap.extend, hlength]

/-- The facts after a batch whose keys differ are its data, and the others as they were. -/
theorem facts_extend (facts : OrderedMap String D) {events : List (PreparedEvent D)}
    (h : (events.map PreparedEvent.target).Nodup) :
    (∀ e ∈ events, (facts.extend (events.map fun e => (e.target.key, e.data))).get e.target.key = some e.data) ∧
      ∀ key, (∀ e ∈ events, e.target.key ≠ key) →
        (facts.extend (events.map fun e => (e.target.key, e.data))).get key = facts.get key := by
  constructor
  · induction events generalizing facts with
    | nil => exact fun e he => (by cases he)
    | cons e events ih =>
      rw [List.map_cons, List.nodup_cons] at h
      have hstep : facts.extend ((e :: events).map fun e => (e.target.key, e.data)) =
          (facts.insert e.target.key e.data).extend (events.map fun e => (e.target.key, e.data)) := rfl
      intro e' he'
      rw [hstep]
      rcases List.mem_cons.1 he' with rfl | he'
      · rw [OrderedMap.get_extend_of_not_mem, OrderedMap.get_insert_self]
        intro p hp heq
        obtain ⟨e₂, he₂, rfl⟩ := List.mem_map.1 hp
        exact h.1 (Target.key_injective heq ▸ List.mem_map_of_mem he₂)
      · exact ih (facts.insert e.target.key e.data) h.2 e' he'
  · intro key hkey
    refine OrderedMap.get_extend_of_not_mem facts fun p hp => ?_
    obtain ⟨e, he, rfl⟩ := List.mem_map.1 hp
    exact hkey e he

/-! ### What may happen while a publication is held -/

section Frame

variable [EventData D]

/-- Everything an append keeps. -/
structure SameFrame (log log' : EventLog D) : Prop where
  bootId : log'.bootId = log.bootId
  targets : log'.targets = log.targets
  reservation : log'.publicationReservation = log.publicationReservation
  next : log'.nextPublicationReservation = log.nextPublicationReservation

omit [EventData D] in
theorem SameFrame.refl (log : EventLog D) : SameFrame log log := ⟨rfl, rfl, rfl, rfl⟩

omit [EventData D] in
theorem SameFrame.trans {log log' log'' : EventLog D} (h : SameFrame log log') (h' : SameFrame log' log'') :
    SameFrame log log'' :=
  ⟨h'.bootId.trans h.bootId, h'.targets.trans h.targets, h'.reservation.trans h.reservation,
    h'.next.trans h.next⟩

theorem append_frame {log log' : EventLog D} {publishedAt : ℕ} {kind : String} {target : TargetJson} {data : D}
    {cause : Option (String × ℕ)} {record : EventRecord D}
    (h : log.append publishedAt kind target data cause = .ok (log', record)) : SameFrame log log' := by
  obtain ⟨-, rfl, -⟩ := append_ok h
  exact ⟨rfl, rfl, rfl, rfl⟩

theorem announce_frame (log : EventLog D) (publishedAt : ℕ) (kind : String) (target : TargetJson) (data : D)
    (cause : Option (String × ℕ)) : SameFrame log (log.announce publishedAt kind target data cause).2.1 := by
  unfold announce
  cases h : log.append publishedAt kind target data cause with
  | error error => exact .refl log
  | ok out => exact append_frame h

theorem observeTargets_frame (runtime : RuntimeView D) (publishedAt : ℕ) (cause : Option (String × ℕ))
    (ts : List Target) (log : EventLog D) :
    SameFrame log (observeTargets runtime publishedAt cause ts log).2.1 := by
  induction ts generalizing log with
  | nil => exact .refl log
  | cons t ts ih =>
    rw [observeTargets]
    cases hquery : runtime.query t with
    | none => exact ih log
    | some data =>
      simp only
      split_ifs with hsame
      · exact ih log
      cases happend : log.append publishedAt t.kind t.id data cause with
      | error error => exact .refl log
      | ok out =>
        obtain ⟨log₁, record⟩ := out
        have hfirst : SameFrame log { log₁ with facts := log₁.facts.insert t.key data } := by
          have hframe := append_frame happend
          exact ⟨hframe.bootId, hframe.targets, hframe.reservation, hframe.next⟩
        exact hfirst.trans (ih _)

end Frame

end EventLog

section Tracking

/-- Everything but the preparation of a publication, its commit and its cancellation. -/
def LogOp.other : LogOp D → Bool
  | .prepare _ _ _ | .commit _ | .cancel => false
  | _ => true

/-- The targets a call starts to track if they are not tracked yet. -/
def LogOp.tracks : LogOp D → List Target
  | .observe runtime _ _ => runtime.discover.elim [] discovered
  | .trackComponent id => [.component id]
  | .trackController id => [.controller id]
  | .trackReference id => [.reference id]
  | _ => []

/-- Adding what is not there yet. -/
theorem mem_addNew {found targets : List Target} {t : Target} :
    t ∈ found.foldl (fun targets t => if t ∈ targets then targets else targets ++ [t]) targets ↔
      t ∈ targets ∨ t ∈ found := by
  induction found generalizing targets with
  | nil => simp
  | cons t' found ih =>
    rw [List.foldl_cons, ih]
    split_ifs with h
    · rw [List.mem_cons]
      constructor
      · rintro (ht | ht)
        · exact .inl ht
        · exact .inr (.inr ht)
      · rintro (ht | rfl | ht)
        · exact .inl ht
        · exact .inl h
        · exact .inr ht
    · rw [List.mem_append, List.mem_singleton, List.mem_cons, or_assoc]

theorem nodup_addNew {found targets : List Target} :
    (found.foldl (fun targets t => if t ∈ targets then targets else targets ++ [t]) targets).Nodup ↔
      targets.Nodup := by
  induction found generalizing targets with
  | nil => rfl
  | cons t found ih =>
    rw [List.foldl_cons, ih]
    split_ifs with h
    · rfl
    · rw [List.nodup_append]
      constructor
      · exact fun hall => hall.1
      · refine fun hnodup => ⟨hnodup, List.nodup_singleton t, fun a ha b hb heq => h ?_⟩
        rw [← List.mem_singleton.1 hb, ← heq]
        exact ha

theorem nodup_sortByKey {targets : List Target} : (sortByKey targets).Nodup ↔ targets.Nodup :=
  (List.perm_insertionSort _ targets).nodup_iff

theorem mem_targets_track (log : EventLog D) (target t : Target) :
    t ∈ (log.track target).targets ↔ t ∈ log.targets ∨ t ∈ [target] := by
  unfold EventLog.track
  split_ifs with h
  · rw [List.mem_singleton]
    constructor
    · exact .inl
    · rintro (ht | rfl)
      · exact ht
      · exact h
  · rw [LogState.mem_sortByKey, List.mem_append]

theorem nodup_targets_track (log : EventLog D) (target : Target) :
    (log.track target).targets.Nodup ↔ log.targets.Nodup := by
  unfold EventLog.track
  split_ifs with h
  · rfl
  · rw [nodup_sortByKey]
    have hadd := @nodup_addNew [target] log.targets
    rwa [List.foldl_cons, if_neg h, List.foldl_nil] at hadd

namespace LogState

variable [EventData D]

/-- A call while a publication is held: the frame it keeps and the targets it adds. -/
structure Between (s s' : LogState D) (tracked : List Target) : Prop where
  publication : s'.publication = s.publication
  bootId : s'.log.bootId = s.log.bootId
  reservation : s'.log.publicationReservation = s.log.publicationReservation
  mem : ∀ t, t ∈ s'.log.targets ↔ t ∈ s.log.targets ∨ t ∈ tracked
  nodup : s'.log.targets.Nodup ↔ s.log.targets.Nodup

theorem step_between (s : LogState D) {op : LogOp D} (h : op.other = true) : s.Between (s.step op) op.tracks := by
  have htrack : ∀ target, s.Between { s with log := s.log.track target } [target] := fun target => by
    refine ⟨rfl, ?_, (track_frame s.log target).2, mem_targets_track s.log target,
      nodup_targets_track s.log target⟩
    show (s.log.track target).bootId = _
    unfold EventLog.track
    split_ifs <;> rfl
  have hannounce : ∀ publishedAt kind target data cause,
      s.Between { s with log := (s.log.announce publishedAt kind target data cause).2.1 } [] :=
    fun publishedAt kind target data cause => by
      have hframe := EventLog.announce_frame s.log publishedAt kind target data cause
      refine ⟨rfl, hframe.bootId, hframe.reservation, fun t => ?_, ?_⟩
      · show t ∈ (s.log.announce publishedAt kind target data cause).2.1.targets ↔ _
        rw [hframe.targets]
        simp
      · show (s.log.announce publishedAt kind target data cause).2.1.targets.Nodup ↔ _
        rw [hframe.targets]
  cases op with
  | observe runtime publishedAt cause =>
    have hframe := EventLog.observeTargets_frame runtime publishedAt cause (s.log.trackNewSignals runtime).targets
      (s.log.trackNewSignals runtime)
    have htargets : (s.step (.observe runtime publishedAt cause)).log.targets =
        (s.log.trackNewSignals runtime).targets := hframe.targets
    refine ⟨rfl, hframe.bootId, hframe.reservation, fun t => ?_, ?_⟩
    · rw [htargets]
      exact mem_sortByKey.trans mem_addNew
    · rw [htargets]
      exact nodup_sortByKey.trans nodup_addNew
  | trackComponent id => exact htrack _
  | trackController id => exact htrack _
  | trackReference id => exact htrack _
  | prepare runtime instruments controllers => cases h
  | cancel => cases h
  | commit publishedAt => cases h
  | operationTerminal publishedAt scope seq data => exact hannounce ..
  | hostState publishedAt state data => exact hannounce ..
  | recorderState publishedAt archiveId data => exact hannounce ..
  | resourceState publishedAt id data => exact hannounce ..
  | configurationState publishedAt data => exact hannounce ..

theorem run_between (s : LogState D) {ops : List (LogOp D)} (h : ∀ op ∈ ops, op.other = true) :
    s.Between (s.run ops) (ops.flatMap LogOp.tracks) := by
  induction ops generalizing s with
  | nil => exact ⟨rfl, rfl, rfl, fun t => by simp [run], Iff.rfl⟩
  | cons op ops ih =>
    have hstep := s.step_between (h op List.mem_cons_self)
    have hrest := ih (s.step op) fun op' hop' => h op' (List.mem_cons_of_mem _ hop')
    refine ⟨hrest.publication.trans hstep.publication, hrest.bootId.trans hstep.bootId,
      hrest.reservation.trans hstep.reservation, fun t => ?_, hrest.nodup.trans hstep.nodup⟩
    rw [List.flatMap_cons, List.mem_append, ← or_assoc, ← hstep.mem t]
    exact hrest.mem t

end LogState

end Tracking

/-! ### A hold that is released -/

namespace EventLog

variable [EventData D]

/-- The same log but for a capacity that one of them holds. -/
structure Holding (capacity : ℕ) (log held : EventLog D) : Prop where
  free : log.publicationReservation = none
  hold : ∃ id, held.publicationReservation = some ⟨id, capacity⟩
  same : held = { log with
    publicationReservation := held.publicationReservation
    nextPublicationReservation := held.nextPublicationReservation }

/-- With room for the capacity an append does the same; refused without the hold, it is refused with it. -/
theorem Holding.append {capacity : ℕ} {log held : EventLog D} (h : Holding capacity log held) (publishedAt : ℕ)
    (kind : String) (target : TargetJson) (data : D) (cause : Option (String × ℕ)) :
    (∀ log' record, log.append publishedAt kind target data cause = .ok (log', record) →
      log'.sequence + capacity ≤ u64Max →
      ∃ held', held.append publishedAt kind target data cause = .ok (held', record) ∧
        Holding capacity log' held') ∧
    (∀ error, log.append publishedAt kind target data cause = .error error →
      ∃ error', held.append publishedAt kind target data cause = .error error') := by
  obtain ⟨id, hid⟩ := h.hold
  have hsame := h.same
  have hsequence : held.sequence = log.sequence := by rw [hsame]
  have hboot : held.bootId = log.bootId := by rw [hsame]
  unfold EventLog.append
  rw [hsequence, hboot, h.free, hid]
  cases hnext : checkedAdd log.sequence 1 with
  | none => exact ⟨fun _ _ hok => (by cases hok), fun error _ => ⟨.exhausted, rfl⟩⟩
  | some sequence =>
    dsimp only
    rw [Option.any_none, if_neg Bool.false_ne_true]
    cases hlength : EventData.encodedLength (eventRecord log.bootId sequence publishedAt kind target data cause) with
    | none =>
      refine ⟨fun _ _ hok => (by cases hok), fun error _ => ?_⟩
      split_ifs
      · exact ⟨_, rfl⟩
      · exact ⟨_, rfl⟩
    | some length =>
      dsimp only
      by_cases hbig : eventSizeLimit < length
      · refine ⟨fun _ _ hok => ?_, fun error _ => ?_⟩
        · rw [if_pos hbig] at hok
          cases hok
        · split_ifs
          · exact ⟨_, rfl⟩
          · exact ⟨_, rfl⟩
      · rw [if_neg hbig, if_neg hbig]
        refine ⟨fun log' record hok hroom => ?_, fun error herror => (by cases herror)⟩
        obtain ⟨rfl, rfl⟩ := Prod.mk.inj (Except.ok.inj hok)
        have hfits : checkedAdd sequence capacity = some (sequence + capacity) :=
          checkedAdd_eq_some.2 ⟨rfl, hroom⟩
        rw [Option.any_some, hfits, Option.isNone_some, if_neg Bool.false_ne_true]
        refine ⟨_, rfl, h.free, ⟨id, hid⟩, ?_⟩
        rw [hsame]
        rfl

theorem sequence_le_observeTargets (runtime : RuntimeView D) (publishedAt : ℕ) (cause : Option (String × ℕ))
    (ts : List Target) (log : EventLog D) :
    log.sequence ≤ (observeTargets runtime publishedAt cause ts log).2.1.sequence := by
  induction ts generalizing log with
  | nil => exact le_rfl
  | cons t ts ih =>
    rw [observeTargets]
    cases hquery : runtime.query t with
    | none => exact ih log
    | some data =>
      simp only
      split_ifs with hsame
      · exact ih log
      cases happend : log.append publishedAt t.kind t.id data cause with
      | error error => exact le_rfl
      | ok out =>
        obtain ⟨log₁, record⟩ := out
        obtain ⟨-, hlog, -⟩ := append_ok happend
        have hone : log.sequence ≤ log₁.sequence := by
          rw [hlog]
          exact Nat.le_succ _
        exact hone.trans (ih { log₁ with facts := log₁.facts.insert t.key data })

theorem Holding.observeTargets {capacity : ℕ} (runtime : RuntimeView D) (publishedAt : ℕ)
    (cause : Option (String × ℕ)) (ts : List Target) {log held : EventLog D} (h : Holding capacity log held)
    (hroom : (observeTargets runtime publishedAt cause ts log).2.1.sequence + capacity ≤ u64Max) :
    Holding capacity (observeTargets runtime publishedAt cause ts log).2.1
        (observeTargets runtime publishedAt cause ts held).2.1 ∧
      (EventLog.observeTargets runtime publishedAt cause ts held).2.2 =
        (EventLog.observeTargets runtime publishedAt cause ts log).2.2 := by
  induction ts generalizing log held with
  | nil => exact ⟨h, rfl⟩
  | cons t ts ih =>
    have hfacts : held.facts = log.facts := by rw [h.same]
    rw [EventLog.observeTargets] at hroom
    rw [EventLog.observeTargets, EventLog.observeTargets, hfacts]
    cases hquery : runtime.query t with
    | none =>
      rw [hquery] at hroom
      exact ih h hroom
    | some data =>
      rw [hquery] at hroom
      simp only at hroom ⊢
      split_ifs at hroom ⊢ with hsame
      · exact ih h hroom
      obtain ⟨hok, herror⟩ := h.append publishedAt t.kind t.id data cause
      cases happend : log.append publishedAt t.kind t.id data cause with
      | error error =>
        obtain ⟨error', herror'⟩ := herror error happend
        rw [herror']
        exact ⟨h, rfl⟩
      | ok out =>
        obtain ⟨log₁, record⟩ := out
        rw [happend] at hroom
        dsimp only at hroom
        have hmono := sequence_le_observeTargets runtime publishedAt cause ts
          { log₁ with facts := log₁.facts.insert t.key data }
        have hfits : log₁.sequence + capacity ≤ u64Max :=
          (Nat.add_le_add_right hmono capacity).trans hroom
        obtain ⟨held₁, hheld₁, hholding⟩ := hok log₁ record happend hfits
        have hnext : Holding capacity { log₁ with facts := log₁.facts.insert t.key data }
            { held₁ with facts := held₁.facts.insert t.key data } := by
          have hfacts₁ : held₁.facts = log₁.facts := by rw [hholding.same]
          refine ⟨hholding.free, hholding.hold, ?_⟩
          rw [hfacts₁]
          conv_lhs => rw [hholding.same]
        obtain ⟨hrest, hpublished⟩ := ih hnext hroom
        rw [hheld₁]
        dsimp only
        exact ⟨hrest, by rw [hpublished]⟩

end EventLog

namespace LogState

variable [EventData D]

/-- Two states alike but for a capacity that one holds stay alike as long as there is room for it. -/
theorem step_holding {capacity : ℕ} {s s' : LogState D} (h : EventLog.Holding capacity s.log s'.log)
    {op : LogOp D} (hother : op.other = true) (hroom : (s.step op).log.sequence + capacity ≤ u64Max) :
    EventLog.Holding capacity (s.step op).log (s'.step op).log ∧ (s'.apply op).2.2 = (s.apply op).2.2 := by
  have hretarget : ∀ {log held : EventLog D} (targets : List Target), EventLog.Holding capacity log held →
      EventLog.Holding capacity { log with targets } { held with targets } := fun targets h => by
    refine ⟨h.free, h.hold, ?_⟩
    conv_lhs => rw [h.same]
  have htargets : s'.log.targets = s.log.targets := by rw [h.same]
  have htrack : ∀ target, EventLog.Holding capacity (s.log.track target) (s'.log.track target) := fun target => by
    unfold EventLog.track
    rw [htargets]
    split_ifs
    · exact h
    · exact hretarget _ h
  have hannounce : ∀ publishedAt kind target data cause,
      (s.log.announce publishedAt kind target data cause).2.1.sequence + capacity ≤ u64Max →
      EventLog.Holding capacity (s.log.announce publishedAt kind target data cause).2.1
          (s'.log.announce publishedAt kind target data cause).2.1 ∧
        (s'.log.announce publishedAt kind target data cause).2.2 =
          (s.log.announce publishedAt kind target data cause).2.2 :=
    fun publishedAt kind target data cause hfits => by
      obtain ⟨hok, herror⟩ := h.append publishedAt kind target data cause
      unfold EventLog.announce at hfits ⊢
      cases happend : s.log.append publishedAt kind target data cause with
      | error error =>
        obtain ⟨error', herror'⟩ := herror error happend
        rw [herror']
        exact ⟨h, rfl⟩
      | ok out =>
        obtain ⟨log', record⟩ := out
        rw [happend] at hfits
        obtain ⟨held', hheld', hholding⟩ := hok log' record happend hfits
        rw [hheld']
        exact ⟨hholding, rfl⟩
  cases op with
  | observe runtime publishedAt cause =>
    have hstart : EventLog.Holding capacity (s.log.trackNewSignals runtime) (s'.log.trackNewSignals runtime) := by
      unfold EventLog.trackNewSignals
      rw [htargets]
      exact hretarget _ h
    have hsame : (s'.log.trackNewSignals runtime).targets = (s.log.trackNewSignals runtime).targets := by
      rw [hstart.same]
    have hobserve := hstart.observeTargets runtime publishedAt cause (s.log.trackNewSignals runtime).targets hroom
    simp only [step, apply, EventLog.observe]
    rw [hsame]
    exact hobserve
  | trackComponent id => exact ⟨htrack _, rfl⟩
  | trackController id => exact ⟨htrack _, rfl⟩
  | trackReference id => exact ⟨htrack _, rfl⟩
  | prepare runtime instruments controllers => cases hother
  | cancel => cases hother
  | commit publishedAt => cases hother
  | operationTerminal publishedAt scope seq data => exact hannounce _ _ _ _ _ hroom
  | hostState publishedAt state data => exact hannounce _ _ _ _ _ hroom
  | recorderState publishedAt archiveId data => exact hannounce _ _ _ _ _ hroom
  | resourceState publishedAt id data => exact hannounce _ _ _ _ _ hroom
  | configurationState publishedAt data => exact hannounce _ _ _ _ _ hroom

theorem run_holding {capacity : ℕ} {s s' : LogState D} (h : EventLog.Holding capacity s.log s'.log)
    (hsound : s.Sound) {ops : List (LogOp D)} (hother : ∀ op ∈ ops, op.other = true)
    (hroom : (s.run ops).log.sequence + capacity ≤ u64Max) :
    EventLog.Holding capacity (s.run ops).log (s'.run ops).log ∧ s'.published ops = s.published ops := by
  induction ops generalizing s s' with
  | nil => exact ⟨h, rfl⟩
  | cons op ops ih =>
    have hnext := (apply_spec hsound op).2
    have hlater : (s.step op).log.sequence ≤ (s.run (op :: ops)).log.sequence := by
      show _ ≤ ((s.step op).run ops).log.sequence
      rw [((run_spec hnext ops).1).sequence]
      exact Nat.le_add_right _ _
    obtain ⟨hstep, hpublished⟩ := step_holding h (hother op List.mem_cons_self)
      ((Nat.add_le_add_right hlater capacity).trans hroom)
    obtain ⟨hrest, hrestPublished⟩ := ih hstep hnext (fun op' hop' => hother op' (List.mem_cons_of_mem _ hop')) hroom
    exact ⟨hrest, by rw [published, published, hpublished, hrestPublished]⟩

/-! ### The commit -/

/-- What installing a batch does to the log. -/
structure Installs (log log' : EventLog D) (records : List (EventRecord D)) (events : List (PreparedEvent D))
    (publishedAt : ℕ) : Prop where
  exactly : records = batchRecords log.bootId publishedAt log.sequence events
  same : ∀ e ∈ events, e.recordData = e.data
  seqs : records.map EventRecord.seq = (List.range' (log.sequence + 1) events.length).map Nat.repr
  sequence : log'.sequence = log.sequence + events.length
  ring : log'.ring = records.foldl EventLog.pushRing log.ring
  fits : ∀ record ∈ records, ∃ length ≤ eventSizeLimit, EventData.encodedLength record = some length
  facts : ∀ e ∈ events, log'.facts.get e.target.key = some e.data
  others : ∀ key, (∀ e ∈ events, e.target.key ≠ key) → log'.facts.get key = log.facts.get key
  targets : log'.targets.Perm (log.targets ++ events.map PreparedEvent.target)
  released : log'.publicationReservation = none

omit [EventData D] in
theorem seqs_batchRecords (bootId : String) (publishedAt sequence : ℕ) (events : List (PreparedEvent D)) :
    (batchRecords bootId publishedAt sequence events).map EventRecord.seq =
      (List.range' (sequence + 1) events.length).map Nat.repr := by
  induction events generalizing sequence with
  | nil => rfl
  | cons e events ih => rw [batchRecords, List.map_cons, ih, List.length_cons, List.range'_succ, List.map_cons]; rfl

omit [EventData D] in
/-- A record of a batch, and the number it has. -/
theorem mem_batchRecords {bootId : String} {publishedAt sequence : ℕ} {events : List (PreparedEvent D)}
    {record : EventRecord D} (h : record ∈ batchRecords bootId publishedAt sequence events) :
    ∃ e ∈ events, ∃ n ≤ sequence + events.length,
      record = eventRecord bootId n publishedAt e.target.kind e.target.id e.recordData none := by
  induction events generalizing sequence with
  | nil => cases h
  | cons e events ih =>
    rw [List.length_cons]
    rcases List.mem_cons.1 h with rfl | h
    · exact ⟨e, List.mem_cons_self, sequence + 1, by omega, rfl⟩
    · obtain ⟨e', he', n, hn, heq⟩ := ih h
      exact ⟨e', List.mem_cons_of_mem _ he', n, by omega, heq⟩

/-- A record within the bound for the greatest numbers is within it for its own. -/
theorem validated_fits [LawfulEventData D] {bootId : String} {target : Target} {data : D} {n publishedAt : ℕ}
    (h : EventLog.validateRecordBound bootId target data = .ok ()) (hn : n ≤ u64Max)
    (hat : publishedAt ≤ durationMax) :
    ∃ length ≤ eventSizeLimit,
      EventData.encodedLength (eventRecord bootId n publishedAt target.kind target.id data none) = some length := by
  unfold EventLog.validateRecordBound at h
  cases hlength : EventData.encodedLength
      (eventRecord bootId u64Max durationMax target.kind target.id data none) with
  | none => rw [hlength] at h; cases h
  | some length =>
    rw [hlength] at h
    simp only at h
    split_ifs at h with hbig
    obtain ⟨length', hle, hshort⟩ := LawfulEventData.shorter bootId target.kind target.id data hn hat hlength
    exact ⟨length', hle.trans (not_lt.1 hbig), hshort⟩

/-- A held batch that was checked is installed, whatever happened since. -/
theorem commit_installs [LawfulEventData D] {log : EventLog D} {publication : PreparedEventPublication D}
    {publishedAt : ℕ} (hheld : log.publicationReservation.isSome = true)
    (hroom : log.sequence + publication.events.length ≤ u64Max) (hat : publishedAt ≤ durationMax)
    (hdistinct : (publication.events.map PreparedEvent.target).Nodup)
    (hsame : ∀ e ∈ publication.events, e.recordData = e.data)
    (hbound : ∀ e ∈ publication.events, EventLog.validateRecordBound log.bootId e.target e.data = .ok ()) :
    ∃ log' records, log.commitSimpleDevicePublication publication publishedAt = some (log', records) ∧
      Installs log log' records publication.events publishedAt := by
  have hexact := EventLog.commitEvents_exact publishedAt publication.events
    { log with publicationReservation := none } hroom
  obtain ⟨hfacts, hothers⟩ := EventLog.facts_extend log.facts hdistinct
  let records := batchRecords log.bootId publishedAt log.sequence publication.events
  let log' : EventLog D := { log with
    sequence := log.sequence + publication.events.length
    ring := records.foldl EventLog.pushRing log.ring
    targets := sortByKey (log.targets ++ publication.events.map PreparedEvent.target)
    facts := log.facts.extend (publication.events.map fun e => (e.target.key, e.data))
    publicationReservation := none }
  have hcommit : log.commitSimpleDevicePublication publication publishedAt = some (log', records) := by
    rw [EventLog.commitSimpleDevicePublication, if_pos hheld, hexact, Option.map_some]
  refine ⟨log', records, hcommit, rfl, hsame, seqs_batchRecords .., rfl, rfl, fun record hrecord => ?_, hfacts, hothers,
    ?_, rfl⟩
  · obtain ⟨e, he, n, hn, rfl⟩ := mem_batchRecords hrecord
    rw [hsame e he]
    exact validated_fits (hbound e he) (hn.trans hroom) hat
  · exact List.perm_insertionSort _ _

/-- An undisturbed hold: the commit installs the batch exactly, and cancelling restores the log. The
targets stay distinct exactly when they were and no call in between tracked a prepared one. -/
theorem held_publication_commits [LawfulEventData D] (runtime : RuntimeView D) (controllers : List ControllerId)
    (references : List ReferenceId) (composed : String) (before : List (LogOp D)) (bootId : String)
    (ops : List (LogOp D)) :
    let s := (start runtime controllers references composed before bootId).run ops
    ∀ (view : RuntimeView D) (instruments : List InstrumentId) (prepared : List ControllerId)
      (publication : PreparedEventPublication D) (log₁ : EventLog D) (between : List (LogOp D)),
      s.log.prepareSimpleDevicePublication view instruments prepared = (.ok publication, log₁) →
      (∀ op ∈ between, op.other = true) →
      let s₁ : LogState D := ⟨log₁, some publication⟩
      let s₂ := s₁.run between
      (∀ publishedAt ≤ durationMax, ∃ log' records,
        s₂.log.commitSimpleDevicePublication publication publishedAt = some (log', records) ∧
        Installs s₂.log log' records publication.events publishedAt ∧
        ((log'.targets.map Target.key).Nodup ↔ (s.log.targets.map Target.key).Nodup ∧
          ∀ op ∈ between, ∀ e ∈ publication.events, e.target ∉ op.tracks)) ∧
      ∃ log', s₂.log.cancelSimpleDevicePublication = some log' ∧
        log' = { s₂.log with publicationReservation := none } ∧
        ((s.run between).log.sequence + publication.events.length ≤ u64Max →
          log' = { (s.run between).log with nextPublicationReservation := log'.nextPublicationReservation } ∧
          s₁.published between = s.published between) := by
  intro s view instruments prepared publication log₁ between hprepare hother s₁ s₂
  have hsound : s.Sound := (run_logs runtime controllers references composed before bootId ops).2
  obtain ⟨hfree, hchecked, hroom, hlog₁⟩ := EventLog.prepare_ok hprepare
  have hsound₁ : s₁.Sound := by
    have happly : s.step (.prepare view instruments prepared) = s₁ := by
      simp only [step, apply, hprepare]
      rfl
    exact happly ▸ (apply_spec hsound _).2
  have hbetween : s₁.Between s₂ (between.flatMap LogOp.tracks) := s₁.run_between hother
  have hsound₂ : s₂.Sound := (run_spec hsound₁ between).2
  have hreservation : s₂.log.publicationReservation =
      some ⟨s.log.nextPublicationReservation, publication.events.length⟩ := by
    rw [hbetween.reservation]
    show log₁.publicationReservation = _
    rw [hlog₁]
  have htargets₁ : s₁.log.targets = s.log.targets := by
    show log₁.targets = _
    rw [hlog₁]
  have hboot : s₂.log.bootId = s.log.bootId := by
    rw [hbetween.bootId]
    show log₁.bootId = _
    rw [hlog₁]
  have hkeys : ∀ targets : List Target, (targets.map Target.key).Nodup ↔ targets.Nodup :=
    fun targets => List.nodup_map_iff Target.key_injective
  refine ⟨fun publishedAt hat => ?_, ?_⟩
  · obtain ⟨log', records, hcommit, hinstalls⟩ := commit_installs (by rw [hreservation]; rfl)
      (hsound₂.room.2 _ hreservation) hat hchecked.distinct hchecked.same
      (fun e he => hboot ▸ hchecked.bounded e he)
    refine ⟨log', records, hcommit, hinstalls, ?_⟩
    rw [hkeys, hkeys, hinstalls.targets.nodup_iff, List.nodup_append, hbetween.nodup, htargets₁]
    constructor
    · rintro ⟨hnodup, -, hdisjoint⟩
      refine ⟨hnodup, fun op hop e he htracked => ?_⟩
      have hmem : e.target ∈ s₂.log.targets :=
        (hbetween.mem _).2 (.inr (List.mem_flatMap.2 ⟨op, hop, htracked⟩))
      exact hdisjoint e.target hmem e.target (List.mem_map_of_mem he) rfl
    · rintro ⟨hnodup, hclear⟩
      refine ⟨hnodup, hchecked.distinct, fun t ht t' ht' heq => ?_⟩
      obtain ⟨e, he, rfl⟩ := List.mem_map.1 ht'
      rw [heq] at ht
      rcases (hbetween.mem _).1 ht with hold | hnew
      · exact hchecked.untracked e he (htargets₁ ▸ hold)
      · obtain ⟨op, hop, htracked⟩ := List.mem_flatMap.1 hnew
        exact hclear op hop e he htracked
  · refine ⟨{ s₂.log with publicationReservation := none }, ?_, rfl, fun hfits => ?_⟩
    · rw [EventLog.cancelSimpleDevicePublication, if_pos (by rw [hreservation]; rfl)]
    · have hholding : EventLog.Holding publication.events.length s.log s₁.log := by
        refine ⟨hfree, ⟨s.log.nextPublicationReservation, ?_⟩, ?_⟩
        · show log₁.publicationReservation = _
          rw [hlog₁]
        · show log₁ = { s.log with
            publicationReservation := log₁.publicationReservation
            nextPublicationReservation := log₁.nextPublicationReservation }
          rw [hlog₁]
      obtain ⟨hend, hpublished⟩ := run_holding hholding hsound hother hfits
      refine ⟨?_, hpublished⟩
      have hfree' := hend.free
      have hsame : s₂.log = { (s.run between).log with
          publicationReservation := s₂.log.publicationReservation
          nextPublicationReservation := s₂.log.nextPublicationReservation } := hend.same
      rw [hsame, ← hfree']

section

/-- No float is printed below. -/
local instance : FloatText := ⟨fun _ => "0.0"⟩

def bareRuntime : RuntimeView Json :=
  ⟨none, fun _ => none, fun _ => none, fun _ => none, fun _ => none, fun _ => none⟩

/-- One controller is prepared. -/
def preparedRuntime : RuntimeView Json :=
  { bareRuntime with
    preparedSimpleController := fun id => if id = 7 then some (.object [("state", .string "ready")]) else none }

def preparedController : PreparedEvent Json :=
  ⟨.controller 7, .object [("state", .string "ready")], .object [("state", .string "ready")]⟩

/-- A controller tracked between its preparation and the commit is a target twice. -/
theorem tracked_and_installed :
    let s : LogState Json := start bareRuntime [] [] "boot" [] "boot"
    let publication : PreparedEventPublication Json := ⟨1, [preparedController]⟩
    ∃ log₁ log' records,
      s.log.prepareSimpleDevicePublication preparedRuntime [] [7] = (.ok publication, log₁) ∧
      ((⟨log₁, some publication⟩ : LogState Json).run [.trackController 7]).log.commitSimpleDevicePublication
        publication 0 = some (log', records) ∧
      log'.targets.map Target.key = ["controller:7", "controller:7"] := by
  refine ⟨_, _, _, rfl, rfl, ?_⟩
  decide +kernel

theorem prepared_controller : ∃ log₁,
    ((start bareRuntime [] [] "boot" [] "boot").run []).log.prepareSimpleDevicePublication preparedRuntime [] [7] =
      (.ok ⟨1, [preparedController]⟩, log₁) := ⟨_, rfl⟩

/-- A configuration change while the batch is held leaves room for it, and its target is new. -/
theorem installed_once :
    let s : LogState Json := (start bareRuntime [] [] "boot" [] "boot").run []
    let publication : PreparedEventPublication Json := ⟨1, [preparedController]⟩
    ∃ log₁ log' records,
      s.log.prepareSimpleDevicePublication preparedRuntime [] [7] = (.ok publication, log₁) ∧
      ((⟨log₁, some publication⟩ : LogState Json).run
        [.configurationState 1 .null]).log.commitSimpleDevicePublication publication 2 = some (log', records) ∧
      (log'.targets.map Target.key).Nodup := by
  obtain ⟨log₁, hprepare⟩ := prepared_controller
  obtain ⟨hcommits, -⟩ := held_publication_commits bareRuntime [] [] "boot" [] "boot" [] preparedRuntime [] [7]
    ⟨1, [preparedController]⟩ log₁ [.configurationState 1 .null] hprepare (by decide)
  obtain ⟨log', records, hcommit, -, hdistinct⟩ := hcommits 2 (by decide +kernel)
  refine ⟨log₁, log', records, hprepare, hcommit, hdistinct.2 ⟨by decide +kernel, fun op hop e _ => ?_⟩⟩
  obtain rfl := List.mem_singleton.1 hop
  exact List.not_mem_nil

end

end LogState

end LabRuntime.Events
