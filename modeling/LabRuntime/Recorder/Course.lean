import LabRuntime.Recorder.Receipts

/-! Where the owner is between the barriers it has sent and those that its receipts have confirmed. The
order in which messages are sent follows. -/

namespace LabRuntime.Recorder

open History

variable {layout : FactLayout} {A : System layout → Act → Prop} {s s' : System layout}

/-- How many barriers are sent in a state, where `done` of them are confirmed. -/
def RecordingState.Stands (done sent : ℕ) : RecordingState → Prop
  | .idle => Even done ∧ sent = done
  | .starting => Even done ∧ sent = done + 1
  | .recording => ¬ Even done ∧ sent = done
  | .stopping => ¬ Even done ∧ sent = done + 1
  | .failed => sent ≤ done + 1
  | .closed => False

theorem RecordingState.Stands.fail {done sent : ℕ} {state : RecordingState} (h : state.Stands done sent) :
    RecordingState.Stands done sent .failed := by
  unfold Stands at h ⊢
  cases state <;> dsimp only at h ⊢ <;> omega

/-- The boot is not finished, or the worker has not left its loop since. -/
def Storage.Open (s : Storage) : Prop := s.phase.receiving = true ∨ ∀ m ∈ s.settled, m.isFinish = false

/-- `done` is what the adopted receipts cover. -/
structure Course (s : System layout) (done : List Message) : Prop where
  settled : done <+: s.storage.settled
  persisted : s.owner.cached.persistedThroughSequence = Spans.total Message.records done
  stands : s.storage.Open → s.owner.cached.state.Stands (barriers done) (barriers s.storage.sent)

structure Lifecycle (s : System layout) : Prop where
  numbered : Numbered s
  receipted : s.storage.Receipted
  placed : Hitherto Message.Placed s.storage.sent
  agrees : s.storage.store.Agrees s.storage.settled
  gapless : s.owner.gapScheduled = false → Gapless s.storage.sent
  failed : s.owner.gapScheduled = true → s.owner.cached.state = .failed
  unfinished : s.owner.finishRequested = false → ∀ m ∈ s.storage.sent, m.isFinish = false
  course : ∃ done, Course s done

theorem Storage.settled_sent (s : Storage) : s.settled <+: s.sent := by
  unfold Storage.sent
  rw [List.append_assoc]
  exact List.prefix_append _ _

theorem Lifecycle.ordered (h : Lifecycle s) : s.storage.Ordered where
  chained := h.numbered.settled
  stored := h.numbered.stored
  placed := h.placed.of_prefix s.storage.settled_sent
  agrees := h.agrees

theorem lifecycle_opened (limits : RecorderLimits) (now : ℕ) : Lifecycle (.opened limits now : System layout) where
  numbered := numbered_opened limits now
  receipted := Storage.receipted_opened
  placed := hitherto_nil
  agrees := SqliteStore.agrees_opened
  gapless _ := gapless_nil
  failed h := by cases h
  unfinished _ m hm := by cases hm
  course := ⟨[], List.prefix_rfl, rfl, fun _ => ⟨Even.zero, rfl⟩⟩

/-! ### What leaves the course as it is -/

/-- The owner's part in the lifecycle, and the messages, stay. -/
theorem Lifecycle.of_same (h : Lifecycle s) (hnumbered : Numbered s') (hreceipted : s'.storage.Receipted)
    (hstate : s'.owner.cached.state = s.owner.cached.state)
    (hpersisted : s'.owner.cached.persistedThroughSequence = s.owner.cached.persistedThroughSequence)
    (hgap : s'.owner.gapScheduled = s.owner.gapScheduled) (hfinish : s'.owner.finishRequested = s.owner.finishRequested)
    (hsent : s'.storage.sent = s.storage.sent) (hsettled : s'.storage.settled = s.storage.settled)
    (hstore : s'.storage.store = s.storage.store) (hphase : s'.storage.phase = s.storage.phase) : Lifecycle s' := by
  obtain ⟨done, hdone⟩ := h.course
  refine ⟨hnumbered, hreceipted, hsent ▸ h.placed, by rw [hstore, hsettled]; exact h.agrees, ?_, ?_, ?_, done,
    hsettled ▸ hdone.settled, hpersisted.trans hdone.persisted, ?_⟩
  · rw [hgap, hsent]
    exact h.gapless
  · rw [hgap, hstate]
    exact h.failed
  · rw [hfinish, hsent]
    exact h.unfinished
  · rw [Storage.Open, hphase, hsettled, hstate, hsent]
    exact hdone.stands

theorem Storage.work_receiving (s : Storage) (move : WorkerMove) (h : (s.work move).phase.receiving = true) :
    s.phase.receiving = true := by
  refine Storage.work_keeps (fun s' => s'.phase.receiving = true → s.phase.receiving = true) move id
    (fun s' hworked h => ?_) (fun s' _ hbroken h => ?_) h
  · cases hworked with
    | finished down => exact h
    | left lost phase | retired lost phase | closed lost phase => cases h
    | rejected | mismatched => cases h
    | _ => simp_all [Phase.receiving]
  · cases hbroken <;> cases h

theorem Storage.work_settled (s : Storage) (move : WorkerMove) : s.settled <+: (s.work move).settled := by
  obtain ⟨work, deferred, -, -, hsettled⟩ | ⟨-, jobs, hsettled, -⟩ := s.work_commits move
  · exact hsettled ▸ List.prefix_append _ _
  · exact hsettled ▸ List.prefix_append _ _

theorem Storage.work_open (s : Storage) (move : WorkerMove) (h : (s.work move).Open) : s.Open :=
  h.imp (s.work_receiving move) fun hnone m hm => hnone m ((s.work_settled move).subset hm)

/-- The worker's moves keep its store in agreement with what it settles. -/
theorem Lifecycle.work_agrees (h : Lifecycle s) (move : WorkerMove) :
    (s.storage.work move).store.Agrees (s.storage.work move).settled := by
  have hplaced : Hitherto Message.Placed (s.storage.work move).settled := by
    refine h.placed.of_prefix ?_
    rw [← s.storage.work_sent move]
    exact (s.storage.work move).settled_sent
  obtain ⟨work, deferred, -, hexecute, hsettled⟩ | ⟨hstore, jobs, hsettled, hjobs⟩ := s.storage.work_commits move
  · rw [hsettled] at hplaced ⊢
    exact Work.execute_agrees hexecute h.agrees hplaced
  · rw [hsettled, hstore]
    refine (SqliteStore.steady_refl _).agrees h.agrees (barriers_eq_zero ?_) fun m hm => ?_
    · refine List.sum_eq_zero fun n hn => ?_
      obtain ⟨m, hm, rfl⟩ := List.mem_map.1 hn
      exact Storage.isJob_records (hjobs m hm)
    · have hjob := hjobs m hm
      cases m <;> first | rfl | cases hjob

theorem Lifecycle.work (h : Lifecycle s) (move : WorkerMove) (hnumbered : Numbered { s with storage := s.storage.work move })
    (hreceipted : (s.storage.work move).Receipted) : Lifecycle { s with storage := s.storage.work move } := by
  have hsent := s.storage.work_sent move
  obtain ⟨done, hdone⟩ := h.course
  refine ⟨hnumbered, hreceipted, hsent ▸ h.placed, h.work_agrees move, hsent ▸ h.gapless, h.failed, hsent ▸ h.unfinished, done,
    hdone.settled.trans (s.storage.work_settled move), hdone.persisted, fun hopen => ?_⟩
  dsimp only
  rw [hsent]
  exact hdone.stands (s.storage.work_open move hopen)

/-! ### Sending -/

/-- What a state says of the messages sent. -/
theorem Lifecycle.running (h : Lifecycle s) (hreceiving : s.storage.phase.receiving = true)
    (hstate : s.owner.cached.state = .starting ∨ s.owner.cached.state = .recording) : Running s.storage.sent := by
  obtain ⟨done, hdone⟩ := h.course
  have hstands := hdone.stands (.inl hreceiving)
  have hgap : s.owner.gapScheduled = false := by
    by_contra hgap
    rw [h.failed (by simpa using hgap)] at hstate
    simp at hstate
  refine ⟨?_, h.gapless hgap⟩
  obtain hstate | hstate := hstate
  · rw [hstate] at hstands
    obtain ⟨heven, hsent⟩ := hstands
    rw [hsent, Nat.even_add_one, not_not]
    exact heven
  · rw [hstate] at hstands
    obtain ⟨hodd, hsent⟩ := hstands
    rwa [hsent]

theorem Lifecycle.stopped (h : Lifecycle s) (hreceiving : s.storage.phase.receiving = true)
    (hstate : s.owner.cached.state = .idle) : Even (barriers s.storage.sent) ∧ Gapless s.storage.sent := by
  obtain ⟨done, hdone⟩ := h.course
  have hstands := hdone.stands (.inl hreceiving)
  rw [hstate] at hstands
  obtain ⟨heven, hsent⟩ := hstands
  refine ⟨by rwa [hsent], h.gapless ?_⟩
  by_contra hgap
  rw [h.failed (by simpa using hgap)] at hstate
  cases hstate

theorem current_recording {o : RecorderWorker layout} {r : ReferenceReservation} (h : o.referenceGenerationCurrent r = true) :
    o.cached.state = .recording := by
  simp only [RecorderWorker.referenceGenerationCurrent, Bool.and_eq_true, decide_eq_true_eq] at h
  exact h.1.1.1.1

theorem admissible_running (h : Lifecycle s) (hreceiving : s.storage.phase.receiving = true)
    (hstate : admissibleState s.owner = true) : Running s.storage.sent :=
  h.running hreceiving (by simpa [admissibleState] using hstate)

/-- Every message is placed where its kind belongs. -/
theorem Lifecycle.offers {m : Message} {o : RecorderWorker layout} (h : Lifecycle s)
    (hreceiving : s.storage.phase.receiving = true) (offer : s.owner.Offer m o) : m.Placed s.storage.sent := by
  cases offer with
  | startupActivation | liveActivation | clockAnchor | history | runs => trivial
  | start label submittedAt boundary first last idle named valid next => exact h.stopped hreceiving idle
  | stop summary requestedAt first last recording free short next => exact h.running hreceiving (.inr recording)
  | probe submittedAt recording quiet due => exact h.running hreceiving (.inr recording)
  | finish summary time first last ended fresh free short next => exact h.unfinished fresh
  | facts group submittedAt first last state nonempty bounded small fits next => exact admissible_running h hreceiving state
  | operation operation bytes first last admissible charged fits next =>
    unfold operationAdmissible at admissible
    rw [Bool.and_eq_true, Bool.or_eq_true, Bool.and_eq_true] at admissible
    obtain ⟨hstate | ⟨-, hterminal⟩, -⟩ := admissible
    · exact .inl (admissible_running h hreceiving hstate)
    · exact .inr hterminal
  | annotation note bytes assigned last recording valid fits next => exact h.running hreceiving (.inr recording)
  | referenceAccepted r accepted assigned last reserved unsent current next =>
    exact h.running hreceiving (.inr (current_recording current))
  | referenceCompletion r terminal records first last referenceCredit charged reserved current matching counted reference
      rest next => exact h.running hreceiving (.inr (current_recording current))
  | gapSeal gap first last fresh failed noted valid next => exact h.gapless fresh

/-- What the owner notes with a message moves it along its course. -/
theorem Course.send {done : List Message} {m : Message} {o : RecorderWorker layout} (h : Course s done)
    (hreceiving : s.storage.phase.receiving = true) (offer : s.owner.Offer m o) :
    Course { s with owner := o, storage := { s.storage with queue := s.storage.queue ++ [m] } } done := by
  have hstands := h.stands (.inl hreceiving)
  have hsent : ({ s.storage with queue := s.storage.queue ++ [m] } : Storage).sent = s.storage.sent ++ [m] :=
    (List.append_assoc _ _ _).symm
  refine ⟨h.settled, ?_, fun _ => ?_⟩
  · cases offer <;> exact h.persisted
  · dsimp only
    rw [hsent, barriers_append]
    cases offer with
    | start label submittedAt boundary first last idle named valid next =>
      rw [idle] at hstands
      obtain ⟨heven, hsent⟩ := hstands
      exact ⟨heven, by rw [hsent]; rfl⟩
    | stop summary requestedAt first last recording free short next =>
      rw [recording] at hstands
      obtain ⟨hodd, hsent⟩ := hstands
      exact ⟨hodd, by rw [hsent]; rfl⟩
    | _ => exact hstands

theorem Offer.gapSeals {m : Message} {o o' : RecorderWorker layout} (h : o.Offer m o') :
    (o'.gapScheduled = false → o.gapScheduled = false ∧ m.isGapSeal = false) ∧
      (o'.gapScheduled = true → o.gapScheduled = true ∧ o'.cached.state = o.cached.state ∨ o'.cached.state = .failed ∨
        o.gapScheduled = true ∧ o.cached.state ≠ .failed) := by
  cases h with
  | start label submittedAt boundary first last idle named valid next =>
    refine ⟨fun h => ⟨h, rfl⟩, fun h => .inr (.inr ⟨h, ?_⟩)⟩
    rw [idle]
    nofun
  | stop summary requestedAt first last recording free short next =>
    refine ⟨fun h => ⟨h, rfl⟩, fun h => .inr (.inr ⟨h, ?_⟩)⟩
    rw [recording]
    nofun
  | gapSeal gap first last fresh failed noted valid next => exact ⟨nofun, fun _ => .inr (.inl failed)⟩
  | _ => exact ⟨fun h => ⟨h, rfl⟩, fun h => .inl ⟨h, rfl⟩⟩

theorem Offer.finishes {m : Message} {o o' : RecorderWorker layout} (h : o.Offer m o') (hfinish : o'.finishRequested = false) :
    o.finishRequested = false ∧ m.isFinish = false := by
  cases h with
  | finish => cases hfinish
  | _ => exact ⟨hfinish, rfl⟩

theorem Lifecycle.send {m : Message} {o : RecorderWorker layout} (h : Lifecycle s)
    (hreceiving : s.storage.phase.receiving = true) (offer : s.owner.Offer m o) :
    Lifecycle { s with owner := o, storage := { s.storage with queue := s.storage.queue ++ [m] } } := by
  have hsent : ({ s.storage with queue := s.storage.queue ++ [m] } : Storage).sent = s.storage.sent ++ [m] :=
    (List.append_assoc _ _ _).symm
  obtain ⟨done, hdone⟩ := h.course
  have hgaps := Offer.gapSeals offer
  refine ⟨h.numbered.send offer, ⟨h.receipted.current, h.receipted.published, h.receipted.sealed, h.receipted.closed⟩, ?_,
    h.agrees, fun hgap => ?_, fun hgap => ?_, fun hfinish m' hm' => ?_, done, hdone.send hreceiving offer⟩
  · dsimp only
    rw [hsent, hitherto_snoc]
    exact ⟨h.placed, h.offers hreceiving offer⟩
  · obtain ⟨hfresh, hkind⟩ := hgaps.1 hgap
    dsimp only
    rw [hsent, gapless_append, gapless_singleton]
    exact ⟨h.gapless hfresh, hkind⟩
  · obtain ⟨hold, heq⟩ | hfailed | ⟨hold, hlive⟩ := hgaps.2 hgap
    · exact heq.trans (h.failed hold)
    · exact hfailed
    · exact absurd (h.failed hold) hlive
  · obtain ⟨hfresh, hkind⟩ := Offer.finishes offer hfinish
    dsimp only at hm'
    rw [hsent] at hm'
    obtain hm' | hm' := List.mem_append.1 hm'
    · exact h.unfinished hfresh m' hm'
    · rw [List.mem_singleton.1 hm']
      exact hkind

/-! ### Receipts -/

/-- Of two covered prefixes the one with more records has the more barriers. -/
theorem barriers_le {ms ns settled : List Message} (hms : ms <+: settled) (hns : ns <+: settled)
    (h : Spans.total Message.records ms ≤ Spans.total Message.records ns) : barriers ms ≤ barriers ns := by
  obtain ⟨rest, rfl⟩ | ⟨rest, rfl⟩ := List.prefix_or_prefix_of_prefix hms hns
  · rw [barriers_append]
    exact Nat.le_add_right _ _
  · rw [Spans.total_append] at h
    rw [barriers_append, barriers_eq_zero (show Spans.total Message.records rest = 0 by omega)]
    exact le_rfl

/-- A receipt moves the owner on to the barriers it covers. -/
theorem RecordingState.Stands.adopt {o : RecorderWorker layout} {receipt : Receipt} {covered : List Message} {done sent : ℕ}
    (h : o.cached.state.Stands done sent) (htells : receipt.Tells covered) (hclosed : receipt.state ≠ .closed)
    (hdone : done ≤ barriers covered) (hsent : barriers covered ≤ sent) :
    (o.stateAfter receipt).Stands (barriers covered) sent := by
  unfold RecorderWorker.stateAfter
  cases hreceipt : receipt.state with
  | starting => exact absurd hreceipt htells.state.1
  | stopping => exact absurd hreceipt htells.state.2
  | closed => exact absurd hreceipt hclosed
  | failed =>
    have hfailed : RecordingState.Stands (barriers covered) sent .failed := by
      have := h.fail
      unfold Stands at this ⊢
      dsimp only at this ⊢
      omega
    by_cases hstate : o.cached.state = .failed
    · rw [if_pos (.inr (.inr hstate)), hstate]
      exact hfailed
    · rw [if_neg (by simp [hstate])]
      exact hfailed
  | idle =>
    have heven := htells.idle hreceipt
    cases hstate : o.cached.state <;> rw [hstate] at h <;> simp [Stands] at h ⊢ <;> grind
  | recording =>
    have hodd := htells.recording hreceipt
    cases hstate : o.cached.state <;> rw [hstate] at h <;> simp [Stands] at h ⊢ <;> grind

theorem Course.adopt {done : List Message} {receipt : Receipt} {charged referenceCredit : Credit} (h : Course s done)
    (hreceipted : s.storage.Receipted) (hshown : s.storage.Shown receipt)
    (hadopt : s.owner.Adoptable receipt charged referenceCredit) : ∃ done',
      Course ({ s with owner := ({ s.owner with charged, referenceCredit } : RecorderWorker layout).adopt receipt } :
        System layout) done' := by
  obtain ⟨covered, hfront, hcovers⟩ := hreceipted.shown hshown
  refine ⟨covered, hfront, hcovers.persisted, fun hopen => ?_⟩
  have hclosed : receipt.state ≠ .closed := fun hclosed => by
    obtain ⟨hsealed, hdown⟩ := hreceipted.closed receipt hshown hclosed
    obtain ⟨-, pre, m, hsettled, hfinish, -⟩ := hreceipted.sealed receipt hshown hsealed
    obtain hreceiving | hnone : s.storage.phase.receiving = true ∨ ∀ m ∈ s.storage.settled, m.isFinish = false := hopen
    · rw [hreceiving] at hdown
      cases hdown
    · rw [hnone m (by rw [hsettled]; exact List.mem_append_right _ (List.mem_singleton_self _))] at hfinish
      cases hfinish
  have hle : barriers done ≤ barriers covered := by
    refine barriers_le h.settled hfront ?_
    rw [← hcovers.persisted, ← h.persisted]
    exact hadopt.persisted
  have hsent : barriers covered ≤ barriers s.storage.sent :=
    (hfront.trans s.storage.settled_sent).sublist.countP_le
  exact (h.stands hopen).adopt (o := { s.owner with charged, referenceCredit }) hcovers.tells hclosed hle hsent

theorem stateAfter_failed {o : RecorderWorker layout} (receipt : Receipt) (h : o.cached.state = .failed) :
    o.stateAfter receipt = .failed := by
  unfold RecorderWorker.stateAfter
  rw [if_pos (.inr (.inr h)), h]

/-! ### The invariant -/

theorem Course.fail {done : List Message} {o : RecorderWorker layout} (h : Course s done)
    (hstate : o.cached.state = .failed)
    (hpersisted : o.cached.persistedThroughSequence = s.owner.cached.persistedThroughSequence) :
    Course { s with owner := o } done := by
  refine ⟨h.settled, hpersisted.trans h.persisted, fun hopen => ?_⟩
  dsimp only
  rw [hstate]
  exact (h.stands hopen).fail

theorem Micro.lifecycle (h : Micro A s s') (hs : Lifecycle s) : Lifecycle s' := by
  have hnumbered := h.numbered hs.numbered
  have hreceipted := h.receipted hs.ordered hs.receipted
  obtain ⟨done, hdone⟩ := hs.course
  cases h with
  | worker move granted => exact hs.work move hnumbered hreceipted
  | sent message o offer granted receiving room => exact hs.send receiving offer
  | reserved o h granted => cases h <;> exact hs.of_same hnumbered hreceipted rfl rfl rfl rfl rfl rfl rfl rfl
  | changed o h => cases h <;> exact hs.of_same hnumbered hreceipted rfl rfl rfl rfl rfl rfl rfl rfl
  | adopted receipt charged referenceCredit shown h =>
    refine ⟨hnumbered, hreceipted, hs.placed, hs.agrees, hs.gapless, fun hgap => ?_, hs.unfinished,
      hdone.adopt hs.receipted shown h⟩
    exact stateAfter_failed (o := { s.owner with charged, referenceCredit }) receipt (hs.failed hgap)
  | failed message cause granted =>
    exact ⟨hnumbered, hreceipted, hs.placed, hs.agrees, hs.gapless, fun _ => rfl, hs.unfinished, done, hdone.fail rfl rfl⟩
  | gapFailed gap fresh live valid granted =>
    exact ⟨hnumbered, hreceipted, hs.placed, hs.agrees, hs.gapless, fun _ => rfl, hs.unfinished, done, hdone.fail rfl rfl⟩
  | scheduled | refused | marked | slots | panicked =>
    exact hs.of_same hnumbered hreceipted rfl rfl rfl rfl rfl rfl rfl rfl

theorem Reachable.lifecycle {limits : RecorderLimits} {now : ℕ} (h : Reachable limits now s) : Lifecycle s :=
  h.keeps (fun _ _ => Micro.lifecycle) (lifecycle_opened limits now)

theorem Path.lifecycle (h : Path A s s') (hs : Lifecycle s) : Lifecycle s' := h.keeps (fun _ _ => Micro.lifecycle) hs

end LabRuntime.Recorder
