import LabRuntime.Recorder.CallPaths

/-! Record numbers. The owner assigns them before a message is sent, the store counts them again in
its transactions, and the two agree. -/

namespace LabRuntime.Recorder

variable {layout : FactLayout}

/-! ### What a transaction adds -/

namespace SqliteStore

variable {store store' : SqliteStore}

/-- `store'` has `count` further records, under the next numbers. -/
structure Extends (store store' : SqliteStore) (count : ℕ) : Prop where
  next : store'.nextRecordSequence = store.nextRecordSequence + count
  rows : store'.records.map RecordRow.recordSeq =
    store.records.map RecordRow.recordSeq ++ List.range' (store.nextRecordSequence + 1) count
  through : store.checkpoint.persistedThroughSeq = store.nextRecordSequence →
    store'.checkpoint.persistedThroughSeq = store'.nextRecordSequence

theorem extends_refl (store : SqliteStore) : store.Extends store 0 := ⟨rfl, by simp, id⟩

/-- A commit of rows under the next numbers; identities and runs beside them do not matter. -/
theorem extends_commit {rows : List RecordRow} {count : ℕ} (hrecords : store'.records = store.records ++ rows)
    (hrows : rows.map RecordRow.recordSeq = List.range' (store.nextRecordSequence + 1) count)
    (hnext : store'.nextRecordSequence = store.nextRecordSequence + count)
    (hthrough : store'.checkpoint.persistedThroughSeq = store'.nextRecordSequence) : store.Extends store' count :=
  ⟨hnext, by rw [hrecords, List.map_append, hrows], fun _ => hthrough⟩

/-- A commit without records. -/
theorem extends_nothing (hrecords : store'.records = store.records)
    (hnext : store'.nextRecordSequence = store.nextRecordSequence)
    (hthrough : store'.checkpoint.persistedThroughSeq = store.checkpoint.persistedThroughSeq) : store.Extends store' 0 :=
  ⟨hnext, by rw [hrecords]; simp, fun hs => by rw [hthrough, hnext, hs]⟩

theorem factRows_seq (runNo : Option ℕ) (last : ℕ) (facts : List Fact) :
    (factRows runNo last facts).map RecordRow.recordSeq = List.range' (last + 1) facts.length := by
  induction facts generalizing last with
  | nil => rfl
  | cons fact facts ih => simp [factRows, ih, List.range'_succ]

theorem startRun_extends {label : String} {policy : RecordingPolicy} {boundary : BoundarySnapshot} {firstRecord : ℕ}
    (h : store.startRun label policy boundary firstRecord = .ok store') : store.Extends store' 2 := by
  unfold startRun at h
  simp only [require_bind, following_bind] at h
  obtain ⟨-, -, -, -, -, -, -, -, h⟩ := h
  cases h
  exact extends_commit rfl rfl rfl rfl

theorem appendGroups_extends {groups : List (List Fact)} {terminal : Option OperationRecord}
    (h : store.appendGroupsWithTerminal groups terminal = .ok store') :
    store.Extends store' (groups.flatten.length + if terminal.isSome then 1 else 0) := by
  unfold appendGroupsWithTerminal at h
  simp only [require_bind, following_bind] at h
  obtain ⟨-, -, -, h⟩ := h
  cases terminal with
  | none =>
    cases h
    exact extends_commit rfl (factRows_seq _ _ _) rfl rfl
  | some operation =>
    simp only [following_bind] at h
    obtain ⟨-, h⟩ := h
    cases h
    refine extends_commit rfl ?_ rfl rfl
    rw [List.map_append, factRows_seq, Option.isSome_some, if_pos rfl, List.range'_concat]
    simp [row, Nat.add_right_comm]

theorem appendFactGroups_extends {groups : List (List Fact)} {firstRecord : ℕ}
    (h : store.appendFactGroups groups firstRecord = .ok store') : store.Extends store' groups.flatten.length := by
  unfold appendFactGroups at h
  simp only [require_bind] at h
  exact appendGroups_extends h.2

theorem appendReferenceCompletion_extends {fact : Option Fact} {terminal : OperationRecord} {firstRecord : ℕ}
    (h : store.appendReferenceCompletion fact terminal firstRecord = .ok store') :
    store.Extends store' (1 + if fact.isSome then 1 else 0) := by
  unfold appendReferenceCompletion at h
  simp only [require_bind] at h
  have hextends := appendGroups_extends h.2
  cases fact <;> exact hextends

theorem appendOperation_extends {operation : OperationRecord} {recordSeq : ℕ}
    (h : store.appendOperation operation recordSeq = .ok store') : store.Extends store' 1 := by
  unfold appendOperation at h
  simp only [require_bind, following_bind] at h
  obtain ⟨-, -, -, -, h⟩ := h
  cases h
  exact extends_commit rfl rfl rfl rfl

theorem appendAnnotation_extends {note : AnnotationRecord} {recordSeq : ℕ}
    (h : store.appendAnnotation note recordSeq = .ok store') : store.Extends store' 1 := by
  unfold appendAnnotation at h
  simp only [require_bind, following_bind] at h
  obtain ⟨⟨-, -, hseq⟩, -, h⟩ := h
  obtain ⟨rfl, -⟩ := checkedAdd_eq_some.1 hseq
  cases h
  exact extends_commit rfl rfl rfl rfl

theorem appendClockAnchor_extends {recordSeq : ℕ} (h : store.appendClockAnchor recordSeq = .ok store') :
    store.Extends store' 1 := by
  unfold appendClockAnchor at h
  simp only [require_bind, following_bind] at h
  obtain ⟨-, -, -, -, h⟩ := h
  cases h
  exact extends_commit rfl rfl rfl rfl

theorem probe_extends {submittedAt : ℕ} (h : store.probe submittedAt = .ok store') : store.Extends store' 0 := by
  unfold probe at h
  simp only [require_bind, following_bind] at h
  obtain ⟨-, -, h⟩ := h
  cases h
  exact extends_nothing rfl rfl rfl

theorem stopRun_extends {summary : Summary} {firstRecord : ℕ} (h : store.stopRun summary firstRecord = .ok store') :
    store.Extends store' 2 := by
  unfold stopRun at h
  simp only [require_bind] at h
  obtain ⟨-, h⟩ := h
  cases hrun : store.runNo with
  | none =>
    rw [hrun] at h
    cases h
  | some runNo =>
    rw [hrun] at h
    simp only [require_bind, following_bind] at h
    obtain ⟨-, -, -, -, -, h⟩ := h
    cases h
    exact extends_commit rfl rfl rfl rfl

theorem failRun_extends {gap : RecorderGap} {recordSeq : ℕ} (h : store.failRun gap recordSeq = .ok store') :
    store.Extends store' 1 := by
  unfold failRun at h
  simp only [require_bind] at h
  obtain ⟨-, -, h⟩ := h
  cases hrun : store.runNo with
  | none =>
    rw [hrun] at h
    cases h
  | some runNo =>
    rw [hrun] at h
    simp only [following_bind] at h
    obtain ⟨-, -, h⟩ := h
    cases h
    exact extends_commit rfl rfl rfl rfl

theorem finishBoot_extends {evidence : Summary} {firstRecord : ℕ} (h : store.finishBoot evidence firstRecord = .ok store') :
    store.Extends store' 2 := by
  unfold finishBoot at h
  simp only [require_bind, following_bind] at h
  obtain ⟨-, -, -, -, -, -, -, h⟩ := h
  cases h
  exact extends_commit rfl rfl rfl rfl

theorem commitActivation_extends {lifecycle : Option LiveActivation} (h : store.commitActivation lifecycle = .ok store') :
    store.Extends store' (if lifecycle.isSome then 1 else 0) := by
  unfold commitActivation at h
  cases lifecycle with
  | none =>
    simp only [following_bind] at h
    obtain ⟨-, h⟩ := h
    cases h
    exact extends_nothing rfl rfl rfl
  | some live =>
    simp only [require_bind, following_bind] at h
    obtain ⟨⟨-, -, hseq⟩, -, -, h⟩ := h
    obtain ⟨hlive, -⟩ := checkedAdd_eq_some.1 hseq
    cases h
    exact extends_commit rfl (by simp [row, hlive]) hlive rfl

end SqliteStore

theorem batchFacts_length (groups : List FactGroup) :
    (Work.batchFacts groups).flatten.length = Spans.total Message.records (groups.map .facts) := by
  induction groups with
  | nil => rfl
  | cons group groups ih =>
    simp only [Work.batchFacts, List.map_cons, List.flatten_cons, List.length_append, Spans.total_cons] at ih ⊢
    rw [ih]
    rfl

theorem executeBatch_extends {store store' : SqliteStore} {groups : List FactGroup}
    (h : Work.executeBatch store groups = .ok store') :
    store.Extends store' (Spans.total Message.records (groups.map .facts)) := by
  cases groups with
  | nil => cases h
  | cons group groups =>
    unfold Work.executeBatch at h
    dsimp only at h
    split_ifs at h
    rw [← batchFacts_length]
    exact SqliteStore.appendFactGroups_extends h

/-- A transaction stores the records of its messages, under the next numbers. -/
theorem Work.execute_extends {store store' : SqliteStore} {work : Work} (h : work.execute store = .ok store') :
    store.Extends store' (Spans.total Message.records work.messages) := by
  cases work with
  | batch groups => exact executeBatch_extends h
  | one message =>
    change store.Extends store' (Spans.total Message.records [message])
    rw [show Spans.total Message.records [message] = message.records by simp]
    cases message with
    | activation root lifecycle => exact SqliteStore.commitActivation_extends h
    | start label policy submittedAt boundary firstRecord => exact SqliteStore.startRun_extends h
    | facts group =>
      have hextends : store.Extends store' (Spans.total Message.records ([group].map .facts)) := executeBatch_extends h
      simpa using hextends
    | clockAnchor assigned => exact SqliteStore.appendClockAnchor_extends h
    | operation operation bytes assigned => exact SqliteStore.appendOperation_extends h
    | referenceAccepted operation bytes assigned => exact SqliteStore.appendOperation_extends h
    | referenceCompletion fact capturedAt terminal bytes firstRecord =>
      exact SqliteStore.appendReferenceCompletion_extends h
    | annotation note bytes assigned => exact SqliteStore.appendAnnotation_extends h
    | gapSeal gap assigned => exact SqliteStore.failRun_extends h
    | probe submittedAt => exact SqliteStore.probe_extends h
    | history job => cases h; exact store.extends_refl
    | runs job => cases h; exact store.extends_refl
    | stop summary requestedAt firstRecord => exact SqliteStore.stopRun_extends h
    | finish summary time firstRecord => exact SqliteStore.finishBoot_extends h

/-! ### What the worker keeps -/

namespace Storage

variable {s s' : Storage}

theorem Worked.sent (h : s.Worked s') : s'.sent = s.sent := by
  cases h with
  | deferredJob message phase job => simp [Storage.sent, phase, Phase.inHand]
  | queuedJob message queue phase head job => simp [Storage.sent, phase, head, Phase.inHand]
  | deferredWork message phase work =>
    have hmessages : (Work.of message).messages = [message] := by cases message <;> rfl
    simp [Storage.sent, phase, Phase.inHand, hmessages]
  | queuedWork message queue phase head work =>
    have hmessages : (Work.of message).messages = [message] := by cases message <;> rfl
    simp [Storage.sent, phase, head, Phase.inHand, hmessages]
  | published work deferred receipt phase ok =>
    cases isFinish work <;> simp [Storage.sent, post, phase, Phase.inHand]
  | gathered groups group queue phase head room => simp [Storage.sent, phase, head, Phase.inHand, Work.messages]
  | deferred groups message queue phase head => simp [Storage.sent, phase, head, Phase.inHand]
  | executed work deferred store phase committed => simp [Storage.sent, phase, Phase.inHand]
  | rejected work deferred error phase refused => rfl
  | mismatched work deferred error phase refused => rfl
  | answered message history runs phase => simp [Storage.sent, phase, Phase.inHand]
  | inspected deferred phase => simp [Storage.sent, phase, Phase.inHand]
  | closed lost phase => simp [Storage.sent, phase, Phase.inHand]
  | left lost phase => simp [Storage.sent, post, phase, Phase.inHand]
  | retired lost phase => simp [Storage.sent, phase, Phase.inHand]
  | finished down => rfl

theorem Broken.sent (h : s.Broken s') : s'.sent = s.sent := by
  cases h <;> rfl

/-- The worker loses no message and invents none. -/
theorem work_sent (s : Storage) (move : WorkerMove) : (s.work move).sent = s.sent :=
  work_keeps (fun s' => s'.sent = s.sent) move rfl (fun _ h => h.sent) fun _ _ h => h.sent

/-- The store changes by a transaction that succeeds, which settles its messages. -/
def Commits (s s' : Storage) : Prop :=
  ∃ work deferred, s.phase = .holding work deferred ∧ work.execute s.store = .ok s'.store ∧
    s'.settled = s.settled ++ work.messages

/-- No transaction: at most a history job is settled. -/
def Uncommitted (s s' : Storage) : Prop :=
  s'.store = s.store ∧ ∃ jobs, s'.settled = s.settled ++ jobs ∧ ∀ m ∈ jobs, isJob m = true

theorem Uncommitted.of_same (hstore : s'.store = s.store) (hsettled : s'.settled = s.settled) : Uncommitted s s' :=
  ⟨hstore, [], by simp [hsettled]⟩

theorem Worked.commits (h : s.Worked s') : Commits s s' ∨ Uncommitted s s' := by
  cases h with
  | executed work deferred store phase committed => exact .inl ⟨work, deferred, phase, committed, rfl⟩
  | deferredJob message phase job => exact .inr ⟨rfl, [message], rfl, by simpa using job⟩
  | queuedJob message queue phase head job => exact .inr ⟨rfl, [message], rfl, by simpa using job⟩
  | _ => exact .inr (.of_same rfl rfl)

theorem work_commits (s : Storage) (move : WorkerMove) : Commits s (s.work move) ∨ Uncommitted s (s.work move) :=
  work_keeps (fun s' => Commits s s' ∨ Uncommitted s s') move (.inr (.of_same rfl rfl)) (fun _ h => h.commits)
    fun _ _ h => .inr (by cases h <;> exact .of_same rfl rfl)

end Storage

/-! ### The invariant -/

theorem Storage.isJob_records {m : Message} (h : isJob m = true) : m.records = 0 := by
  cases m <;> first | rfl | cases h

/-- A message carries the next numbers of its owner, who moves on by as many. -/
theorem RecorderWorker.Offer.numbers {o o' : RecorderWorker layout} {m : Message} (h : o.Offer m o') :
    (m.records ≠ 0 → m.firstRecord = o.reservedThrough + 1) ∧ o'.reservedThrough = o.reservedThrough + m.records ∧
      (o.reservedThrough ≤ u64Max → o'.reservedThrough ≤ u64Max) ∧ m.solid = true := by
  cases h with
  | startupActivation | probe | history | runs =>
    exact ⟨fun h => absurd rfl h, rfl, id, rfl⟩
  | facts group submittedAt first last state nonempty bounded small fits next =>
    obtain ⟨rfl, hfirst, rfl, hlast⟩ := next_iff.1 next
    exact ⟨fun _ => rfl, rfl, fun _ => hlast, by simpa [Message.solid] using nonempty⟩
  | referenceCompletion r terminal records first last referenceCredit charged reserved current matching counted reference
      rest next =>
    obtain ⟨rfl, hfirst, rfl, hlast⟩ := next_iff.1 next
    refine ⟨fun _ => rfl, ?_, fun _ => hlast, rfl⟩
    rw [counted]
    rfl
  | liveActivation _ _ _ _ _ _ _ next | start _ _ _ _ _ _ _ _ next | stop _ _ _ _ _ _ _ next
  | finish _ _ _ _ _ _ _ _ next | operation _ _ _ _ _ _ _ next | annotation _ _ _ _ _ _ _ next
  | referenceAccepted _ _ _ _ _ _ _ next | gapSeal _ _ _ _ _ _ _ next | clockAnchor _ _ _ _ _ _ next =>
    obtain ⟨rfl, hfirst, rfl, hlast⟩ := next_iff.1 next
    exact ⟨fun _ => rfl, rfl, fun _ => by assumption, rfl⟩

structure Numbered (s : System layout) : Prop where
  chained : Spans.Chained Message.firstRecord Message.records 0 s.storage.sent
  reserved : s.owner.reservedThrough = Spans.total Message.records s.storage.sent
  bounded : s.owner.reservedThrough ≤ u64Max
  solid : ∀ m ∈ s.storage.sent, m.solid = true
  stored : s.storage.store.nextRecordSequence = Spans.total Message.records s.storage.settled
  rows : s.storage.store.records.map RecordRow.recordSeq = List.range' 1 s.storage.store.nextRecordSequence
  through : s.storage.store.checkpoint.persistedThroughSeq = s.storage.store.nextRecordSequence

theorem numbered_opened (limits : RecorderLimits) (now : ℕ) : Numbered (.opened limits now : System layout) where
  chained := trivial
  reserved := rfl
  bounded := by simp [System.opened, RecorderWorker.opened]
  solid := by simp [System.opened, Storage.opened, Storage.sent, Phase.inHand]
  stored := rfl
  rows := rfl
  through := rfl

variable {A : System layout → Act → Prop} {s s' : System layout}

theorem Numbered.of_same (h : Numbered s) (hreserved : s'.owner.reservedThrough = s.owner.reservedThrough)
    (hsent : s'.storage.sent = s.storage.sent) (hsettled : s'.storage.settled = s.storage.settled)
    (hstore : s'.storage.store = s.storage.store) : Numbered s' where
  chained := hsent ▸ h.chained
  reserved := by rw [hreserved, hsent, h.reserved]
  bounded := hreserved ▸ h.bounded
  solid := hsent ▸ h.solid
  stored := by rw [hstore, hsettled, h.stored]
  rows := hstore ▸ h.rows
  through := hstore ▸ h.through

theorem Numbered.work (h : Numbered s) (move : WorkerMove) :
    Numbered { s with storage := s.storage.work move } := by
  have hsent := s.storage.work_sent move
  suffices hstored : (s.storage.work move).store.nextRecordSequence =
        Spans.total Message.records (s.storage.work move).settled ∧
      (s.storage.work move).store.records.map RecordRow.recordSeq =
        List.range' 1 (s.storage.work move).store.nextRecordSequence ∧
      (s.storage.work move).store.checkpoint.persistedThroughSeq = (s.storage.work move).store.nextRecordSequence from
    ⟨hsent ▸ h.chained, hsent ▸ h.reserved, h.bounded, hsent ▸ h.solid, hstored.1, hstored.2.1, hstored.2.2⟩
  obtain ⟨work, deferred, -, hexecute, hsettled⟩ | ⟨hstore, jobs, hsettled, hjobs⟩ := s.storage.work_commits move
  · have hextends := Work.execute_extends hexecute
    refine ⟨?_, ?_, hextends.through h.through⟩
    · rw [hextends.next, hsettled, Spans.total_append, h.stored]
    · rw [hextends.rows, h.rows, hextends.next, Nat.add_comm _ 1, List.range'_append_1]
  · have hnothing : Spans.total Message.records jobs = 0 :=
      List.sum_eq_zero fun n hn => by
        obtain ⟨m, hm, rfl⟩ := List.mem_map.1 hn
        exact Storage.isJob_records (hjobs m hm)
    rw [hstore, hsettled, Spans.total_append, hnothing]
    exact ⟨h.stored, h.rows, h.through⟩

theorem Numbered.send {m : Message} {o : RecorderWorker layout} (h : Numbered s) (offer : s.owner.Offer m o) :
    Numbered { s with owner := o, storage := { s.storage with queue := s.storage.queue ++ [m] } } := by
  obtain ⟨hfirst, hreserved, hbounded, hsolid⟩ := offer.numbers
  have hsent : ({ s.storage with queue := s.storage.queue ++ [m] } : Storage).sent = s.storage.sent ++ [m] :=
    (List.append_assoc _ _ _).symm
  refine ⟨?_, ?_, hbounded h.bounded, ?_, h.stored, h.rows, h.through⟩
  · dsimp only
    rw [hsent, Spans.chained_append, Nat.zero_add, ← h.reserved]
    exact ⟨h.chained, hfirst, trivial⟩
  · dsimp only
    rw [hsent, Spans.total_append, ← h.reserved, hreserved]
    simp
  · dsimp only
    rw [hsent]
    simpa [or_imp, forall_and] using ⟨h.solid, hsolid⟩

theorem Micro.numbered (h : Micro A s s') (hs : Numbered s) : Numbered s' := by
  cases h with
  | worker move granted => exact hs.work move
  | sent message o offer granted receiving room => exact hs.send offer
  | reserved o h granted => cases h <;> exact hs.of_same rfl rfl rfl rfl
  | changed o h => cases h <;> exact hs.of_same rfl rfl rfl rfl
  | _ => exact hs.of_same rfl rfl rfl rfl

theorem Reachable.numbered {limits : RecorderLimits} {now : ℕ} (h : Reachable limits now s) : Numbered s :=
  h.keeps (fun _ _ => Micro.numbered) (numbered_opened limits now)

end LabRuntime.Recorder
