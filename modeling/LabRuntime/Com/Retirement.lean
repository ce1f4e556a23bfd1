import LabRuntime.Com.Order

/-! The end of a session: what a completed shutdown says of the port. -/

namespace LabRuntime.Com

def Stand.drains : Stand → Bool
  | .draining _ => true
  | _ => false

def Stand.notices : Stand → Bool
  | .noticing _ => true
  | _ => false

def Completion.isFailure : Completion → Bool
  | .failed _ => true
  | _ => false

namespace Session

open History

variable {s s' : Session}

/-- The owner takes the worker's `Stopped` while the worker, on its way out, still owns the device. -/
def Hasty (s : Session) (event : Event) : Prop :=
  event = .owner ∧ s.stand.drains = true ∧ s.completions = some .stopped ∧ s.worker.device = true

/-- The owner finds the worker finished and has not read that the open failed. -/
def Missed (s : Session) (event : Event) : Prop :=
  event = .owner ∧ s.stand.notices = true ∧ s.owner.state = .closing ∧ s.workerFinished = true ∧
    s.completions.any Completion.isFailure = true

instance (s : Session) (event : Event) : Decidable (Hasty s event) := inferInstanceAs (Decidable (_ ∧ _))

instance (s : Session) (event : Event) : Decidable (Missed s event) := inferInstanceAs (Decidable (_ ∧ _))

/-- The worker will not own a device any more. -/
def Released (s : Session) : Prop := s.worker.phase.ended = true ∧ s.worker.device = false

structure Retired (s : Session) : Prop where
  finished : s.worker.phase = .finished → s.worker.device = false
  gone : s.gone = true → s.completions = none
  opened : s.completions = some .opened → s.worker.phase.ended = false
  stopped : s.completions = some .stopped → s.worker.phase.ended = true
  closed : s.owner.state = .closed → s.Released ∧ s.completions ≠ some .opened ∧ ∀ error, s.completions ≠ some (.failed error)
  joined : s.owner.joined = true → s.owner.state = .closed ∨ s.gone = true
  complete : .returned .tryShutdown (.shutdown .complete) ∈ s.trace → s.Released

theorem retired_spawned (retry : OpenRetryPolicy) : (spawned retry).Retired :=
  ⟨nofun, fun _ => rfl, nofun, nofun, nofun, nofun, nofun⟩

/-- A worker on its way out takes no device and sends nothing. -/
theorem Worked.ended (hw : s.Worked s') (hended : s.worker.phase.ended = true) :
    s'.worker.phase.ended = true ∧ (s.worker.device = false → s'.worker.device = false) ∧ s'.completions = s.completions ∧
      (s'.worker.phase = .finished → s.worker.phase = .finished ∨ s.worker.device = false) := by
  rw [Phase.ended_iff] at hended
  obtain hphase | hphase := hended <;> cases hw <;>
    simp_all [move, Phase.ended, Phase.looksAtStop, Phase.calls]

theorem Worked.frame (hw : s.Worked s') : s'.owner = s.owner ∧ s'.gone = s.gone ∧ s'.stand = s.stand ∧
    ∀ call answer, .returned call answer ∈ s'.trace → .returned call answer ∈ s.trace := by
  cases hw <;> simp [move, note, put, requestStop]

/-- A worker at work does not finish, and sends only to an owner that is there. -/
theorem Worked.running (hw : s.Worked s') (hended : s.worker.phase.ended = false) :
    s'.worker.phase ≠ .finished ∧ (s.gone = true → s'.completions = s.completions) := by
  have hreturning : s.worker.phase ≠ .returning := fun hphase => by rw [hphase] at hended; cases hended
  cases hw with
  | beganWrite bytes phase => exact ⟨fun h => (nomatch (congrArg Phase.ended h).symm.trans (frame_steady bytes 0).2.2.1), fun _ => rfl⟩
  | wrote bytes offset written phase =>
    exact ⟨fun h => (nomatch (congrArg Phase.ended h).symm.trans (frame_steady bytes _).2.2.1), fun _ => rfl⟩
  | reported phase room heard | answered c phase room heard | announced c phase room heard =>
    exact ⟨nofun, fun hgone => (nomatch hgone.symm.trans heard)⟩
  | deviceDropped phase | requestsDropped phase | completionsDropped phase | finished phase => exact absurd phase hreturning
  | _ => exact ⟨nofun, fun _ => rfl⟩

/-- A worker does not leave while its `Opened` is unread. -/
theorem Retired.unread (h : s.Retired) (ht : s.Tidy) (hw : s.Worked s') (hended : s.worker.phase.ended = false)
    (hopened : s'.completions = some .opened) : s'.worker.phase.ended = false := by
  have hheard : s.completions = some .opened → s.gone = false := fun hslot => by
    cases hgone : s.gone with
    | false => rfl
    | true => cases (h.gone hgone).symm.trans hslot
  cases hw with
  | beganWrite bytes phase => exact (frame_steady bytes 0).2.2.1
  | wrote bytes offset written phase => exact (frame_steady bytes _).2.2.1
  | unheard phase gone | hungUp phase slot gone => cases gone.symm.trans (hheard hopened)
  | announced c phase room =>
    have hsound := ht.sound
    rw [phase] at hsound
    cases hopened
    cases hsound
  | openPanicked phase => cases (ht.early (by rw [phase]; rfl)).1.symm.trans hopened
  | panicked phase => exact absurd (ht.opened hopened).1 (upstream_of_asks (Phase.of_calls phase).1)
  | deviceDropped phase | requestsDropped phase | completionsDropped phase | finished phase =>
    rw [phase] at hended
    cases hended
  | _ => rfl

/-- The last word is the worker's. -/
theorem Retired.last (h : s.Retired) (ht : s.Tidy) (hw : s.Worked s') (hended : s.worker.phase.ended = false)
    (hstopped : s'.completions = some .stopped) : s'.worker.phase.ended = true := by
  cases hw with
  | announced c phase => rfl
  | answered c phase =>
    have hsound := ht.sound
    rw [phase] at hsound
    cases hstopped
    cases hsound
  | reported => cases hstopped
  | _ => cases hended.symm.trans (h.stopped hstopped)

theorem Retired.worked (h : s.Retired) (ht : s.Tidy) (hw : s.Worked s') : s'.Retired := by
  obtain ⟨howner, hgone, -, htrace⟩ := hw.frame
  cases hended : s.worker.phase.ended with
  | true =>
    obtain ⟨hended', hdevice, hslot, hfinished⟩ := hw.ended hended
    refine ⟨fun hphase => hdevice ?_, fun h' => hslot.trans (h.gone (hgone ▸ h')), fun hopened => ?_, fun _ => hended',
      fun hclosed => ?_, fun hjoined => ?_, fun hmem => ⟨hended', hdevice (h.complete (htrace _ _ hmem)).2⟩⟩
    · exact (hfinished hphase).elim h.finished id
    · rw [h.opened (hslot ▸ hopened)] at hended
      cases hended
    · obtain ⟨hreleased, hslots⟩ := h.closed (howner ▸ hclosed)
      rw [hslot]
      exact ⟨⟨hended', hdevice hreleased.2⟩, hslots⟩
    · rw [howner] at hjoined ⊢
      rw [hgone]
      exact h.joined hjoined
  | false =>
    have hrunning : ¬ s.Released := fun hreleased => by cases hended.symm.trans hreleased.1
    obtain ⟨hfinished, hslot⟩ := hw.running hended
    refine ⟨fun hphase => absurd hphase hfinished, fun h' => ?_, h.unread ht hw hended, h.last ht hw hended,
      fun hclosed => absurd (h.closed (howner ▸ hclosed)).1 hrunning, fun hjoined => ?_,
      fun hmem => absurd (h.complete (htrace _ _ hmem)) hrunning⟩
    · rw [hgone] at h'
      exact (hslot h').trans (h.gone h')
    · rw [howner] at hjoined ⊢
      rw [hgone]
      exact h.joined hjoined

/-! ### Steps of the owner -/

theorem settle_joined (o : ComTransport) (r : TryRecv) : (o.settle r).joined = o.joined := by
  unfold ComTransport.settle
  split <;> (try split_ifs) <;> rfl

/-- Only a `Stopped` closes a transport, and only an `Opened` or a failure opens a closed one. -/
theorem settle_closed (o : ComTransport) (r : TryRecv) (h : (o.settle r).state = .closed) :
    r = .completion .stopped ∨ o.state = .closed := by
  unfold ComTransport.settle at h
  split at h <;> (try split_ifs at h) <;> first | exact .inl rfl | exact .inr h

theorem settle_stays (o : ComTransport) (r : TryRecv) (h : o.state = .closed) (opened : r ≠ .completion .opened)
    (failed : ∀ error, r ≠ .completion (.failed error)) : (o.settle r).state = .closed := by
  unfold ComTransport.settle
  split <;> (try split_ifs) <;> first | rfl | exact h | simp_all

theorem Retired.receive (h : s.Retired) (fair : s.completions = some .stopped → s.worker.device = false) :
    s.receive.Retired := by
  cases hslot : s.completions with
  | none =>
    rw [receive_none hslot]
    have hne : ∀ c, (if s.worker.completionsHeld then TryRecv.empty else .disconnected) ≠ .completion c := fun c => by
      split_ifs <;> nofun
    refine ⟨h.finished, h.gone, h.opened, h.stopped, fun hclosed => ?_, fun hjoined => ?_, h.complete⟩
    · exact (settle_closed _ _ hclosed).elim (fun heq => absurd heq (hne _)) h.closed
    · rw [show (s.owner.settle _).joined = s.owner.joined from settle_joined _ _] at hjoined
      exact (h.joined hjoined).imp_left fun hclosed => settle_stays _ _ hclosed (hne _) fun _ => hne _
  | some c =>
    rw [receive_some hslot]
    refine ⟨h.finished, fun _ => rfl, nofun, nofun, fun hclosed => ⟨?_, nofun, nofun⟩, fun hjoined => ?_, h.complete⟩
    · obtain heq | hclosed := settle_closed _ _ hclosed
      · cases heq
        exact ⟨h.stopped hslot, fair hslot⟩
      · exact (h.closed hclosed).1
    · rw [show (s.owner.settle _).joined = s.owner.joined from settle_joined _ _] at hjoined
      refine (h.joined hjoined).imp_left fun hclosed => ?_
      obtain ⟨-, hopened, hfailed⟩ := h.closed hclosed
      refine settle_stays _ _ hclosed (fun heq => ?_) fun error heq => ?_
      · cases heq
        exact hopened hslot
      · cases heq
        exact hfailed error hslot

theorem Retired.noticeFinished (h : s.Retired)
    (fair : s.owner.state = .closing → s.workerFinished = true → ∀ error, s.completions ≠ some (.failed error)) :
    s.noticeFinished.Retired := by
  unfold Session.noticeFinished
  split_ifs with hclosing
  · obtain ⟨hstate, hworker⟩ := hclosing
    have hfinished : s.worker.phase = .finished := by
      unfold workerFinished at hworker
      simpa using (Bool.and_eq_true_iff.1 hworker).2
    refine ⟨h.finished, h.gone, h.opened, h.stopped, fun _ => ⟨⟨by rw [hfinished]; rfl, h.finished hfinished⟩, fun hslot => ?_,
      fair hstate hworker⟩, fun _ => .inl rfl, h.complete⟩
    have hended := h.opened hslot
    rw [hfinished] at hended
    cases hended
  · exact h

theorem Retired.fence (h : s.Retired) (gone : s.gone = false) : s.fence.Retired := by
  have hmem : ∀ call answer, .returned call answer ∈ s.trace ++ [.stopRequested] → .returned call answer ∈ s.trace := by
    intro call answer hmem
    simpa using hmem
  unfold Session.fence
  dsimp only
  split_ifs with hclosed
  · exact ⟨h.finished, h.gone, h.opened, h.stopped, h.closed, h.joined, fun hc => h.complete (hmem _ _ hc)⟩
  · refine ⟨h.finished, h.gone, h.opened, h.stopped, nofun, fun hjoined => ?_, fun hc => h.complete (hmem _ _ hc)⟩
    obtain hstate | hgone := h.joined hjoined
    · exact absurd hstate hclosed
    · cases gone.symm.trans hgone

/-- The owner's buffer, its credit and the request channel have no part in the retirement. -/
theorem Retired.kept (h : s.Retired) (worker : s'.worker = s.worker) (gone : s'.gone = s.gone)
    (completions : s'.completions = s.completions) (state : s'.owner.state = s.owner.state)
    (joined : s'.owner.joined = true → s.owner.joined = true ∨ s.owner.state = .closed)
    (trace : .returned .tryShutdown (.shutdown .complete) ∈ s'.trace →
      .returned .tryShutdown (.shutdown .complete) ∈ s.trace ∨ s.owner.state = .closed) : s'.Retired := by
  obtain ⟨hfinished, hgone, hopened, hstopped, hclosed, hjoined, hcomplete⟩ := h
  unfold Released at *
  refine ⟨?_, ?_, ?_, ?_, ?_, fun hj => ?_, fun hmem => ?_⟩
  · rwa [worker]
  · rwa [gone, completions]
  · rwa [worker, completions]
  · rwa [worker, completions]
  · unfold Released
    rwa [worker, completions, state]
  · rw [state, gone]
    exact (joined hj).elim hjoined .inl
  · unfold Released
    rw [worker]
    exact (trace hmem).elim hcomplete fun hstate => (hclosed hstate).1

theorem Retired.hinted (h : s.Retired) : (s.trySend .stop).2.Retired := by
  unfold trySend
  split_ifs
  · exact h
  · exact h
  · exact h.kept rfl rfl rfl rfl .inl .inl

/-- The owner goes on in its call. -/
theorem Retired.standing (h : s.Retired) {stand : Stand} : Retired { s with stand } := h.kept rfl rfl rfl rfl .inl .inl

theorem Retired.retired (h : s.Retired) (call : Call) : (s.retired call).Retired := by
  unfold Session.retired
  split_ifs
  · exact h.kept rfl rfl rfl rfl .inl fun hmem => .inl (by simpa [note] using hmem)
  · exact h.standing

theorem mem_finish {e : Happening} {call : Call} {answer : Answer} (h : e ∈ (s.finish (.returned call answer)).trace) :
    e ∈ s.trace ∨ e = .returned call answer := by
  simpa [finish, note] using h

theorem Retired.conclude (h : s.Retired) (ht : s.Tidy) (call : Call) :
    ((s.conclude call).2.finish (.returned call (s.conclude call).1)).Retired := by
  cases call with
  | tryWrite bytes =>
    change ((s.tryWrite bytes).2.finish (.returned (.tryWrite bytes) (.wrote (s.tryWrite bytes).1))).Retired
    have hmem : ∀ {s₁ : Session} {answer : Answer}, s₁.trace = s.trace → .returned .tryShutdown (.shutdown .complete) ∈
        (s₁.finish (.returned (.tryWrite bytes) answer)).trace → .returned .tryShutdown (.shutdown .complete) ∈ s.trace :=
      fun htrace hmem => htrace ▸ (mem_finish hmem).resolve_right nofun
    obtain ⟨hsame, -⟩ | ⟨-, -, hasked⟩ := ht.tryWrite_cases bytes
    · rw [hsame]
      exact h.kept rfl rfl rfl rfl .inl fun hm => .inl (hmem rfl hm)
    · rw [hasked]
      exact h.kept rfl rfl rfl rfl .inl fun hm => .inl (hmem rfl hm)
  | tryRead length =>
    change ((s.tryRead length).2.finish (.returned (.tryRead length) (.read (s.tryRead length).1))).Retired
    obtain ⟨error, hsame⟩ | ⟨k, -, htaken⟩ | ⟨-, maximum, hasked⟩ := ht.tryRead_cases length
    · rw [hsame]
      exact h.kept rfl rfl rfl rfl .inl fun hm => .inl ((mem_finish hm).resolve_right nofun)
    · rw [htaken]
      exact h.kept rfl rfl rfl rfl .inl fun hm => .inl ((mem_finish hm).resolve_right nofun)
    · rw [hasked]
      exact h.kept rfl rfl rfl rfl .inl fun hm => .inl ((mem_finish hm).resolve_right nofun)
  | tryRecover =>
    change (s.tryRecover.2.finish (.returned .tryRecover (.recovered s.tryRecover.1))).Retired
    rw [ht.recover]
    exact h.kept rfl rfl rfl rfl .inl fun hm => .inl ((mem_finish hm).resolve_right nofun)
  | openStatus | snapshot | retire =>
    exact h.kept rfl rfl rfl rfl .inl fun hm => .inl ((mem_finish hm).resolve_right nofun)
  | tryShutdown =>
    change (s.tryShutdown.2.finish (.returned .tryShutdown (.shutdown s.tryShutdown.1))).Retired
    unfold tryShutdown
    split_ifs with hstate
    · exact h.kept rfl rfl rfl rfl .inl fun hm => .inl ((mem_finish hm).resolve_right nofun)
    · have hclosed : s.owner.state = .closed := not_not.1 hstate
      dsimp only
      unfold Session.join
      split_ifs
      · exact h.kept rfl rfl rfl rfl (fun _ => .inr hclosed) fun _ => .inr hclosed
      · exact h.kept rfl rfl rfl rfl .inl fun _ => .inr hclosed
  | drop =>
    have hjoin : s.join.worker = s.worker ∧ s.join.owner.state = s.owner.state ∧ s.join.trace = s.trace := by
      unfold Session.join
      split_ifs <;> exact ⟨rfl, rfl, rfl⟩
    obtain ⟨hworker, hstate, htrace⟩ := hjoin
    refine ⟨?_, fun _ => rfl, nofun, nofun, fun hclosed => ⟨?_, nofun, nofun⟩, fun _ => .inr rfl, fun hm => ?_⟩
    · change s.join.worker.phase = .finished → s.join.worker.device = false
      rw [hworker]
      exact h.finished
    · change s.join.worker.phase.ended = true ∧ s.join.worker.device = false
      rw [hworker]
      exact (h.closed (hstate ▸ hclosed)).1
    · change s.join.worker.phase.ended = true ∧ s.join.worker.device = false
      rw [hworker]
      exact h.complete (htrace ▸ (mem_finish hm).resolve_right nofun)

theorem Retired.begin (h : s.Retired) (call : Call) : (s.begin call).Retired := by
  unfold Session.begin
  split_ifs with hhome
  · cases call <;> exact h.standing
  · exact h

/-! ### Runs of a session that is shut down -/

theorem fence_gone (s : Session) : s.fence.gone = s.gone := by
  unfold fence
  dsimp only
  split_ifs <;> rfl

theorem trySend_gone (s : Session) (request : Request) : (s.trySend request).2.gone = s.gone := by
  unfold trySend
  split_ifs <;> rfl

theorem receive_gone (s : Session) : s.receive.gone = s.gone := by
  unfold receive
  split <;> rfl

theorem noticeFinished_gone (s : Session) : s.noticeFinished.gone = s.gone := by
  unfold noticeFinished
  split_ifs <;> rfl

theorem retired_home (s : Session) (call : Call) (h : s.gone = false) : (s.retired call).gone = true → (s.retired call).stand = .home := by
  unfold retired
  split_ifs
  · exact fun _ => rfl
  · exact fun hgone => (nomatch hgone.symm.trans h)

/-- A dropped transport is between calls. -/
theorem home_stable : Stable step fun s => s.gone = true → s.stand = .home := by
  intro s event h
  cases event with
  | call call =>
    change (s.begin call).gone = true → (s.begin call).stand = .home
    unfold begin
    split_ifs with hhome
    · intro hgone
      cases call <;> cases hgone.symm.trans hhome.2
    · exact h
  | worker move =>
    change (s.work move).gone = true → (s.work move).stand = .home
    obtain hsame | hworked := s.work_cases move
    · rwa [hsame]
    · obtain ⟨-, hgone, hstand, -⟩ := hworked.frame
      rwa [hgone, hstand]
  | owner =>
    change s.advance.gone = true → s.advance.stand = .home
    have hgone : s.stand ≠ .home → s.gone = false := fun hstand => by
      by_contra hgone
      exact hstand (h (by simpa using hgone))
    unfold advance
    cases hstand : s.stand with
    | home => exact fun _ => hstand
    | retiring call =>
      have hfence : s.fence.gone = false := (fence_gone s).trans (hgone (by rw [hstand]; nofun))
      dsimp only
      split_ifs
      · exact retired_home _ call hfence
      · exact fun hg => (nomatch hg.symm.trans hfence)
    | hinting call => exact retired_home _ call ((trySend_gone s _).trans (hgone (by rw [hstand]; nofun)))
    | draining call =>
      exact fun hg => (nomatch hg.symm.trans ((receive_gone s).trans (hgone (by rw [hstand]; nofun))))
    | noticing call =>
      exact fun hg => (nomatch hg.symm.trans ((noticeFinished_gone s).trans (hgone (by rw [hstand]; nofun))))
    | concluding call => exact fun _ => rfl

/-- A session that is shut down in order. -/
structure Closing (s : Session) : Prop where
  tidy : s.Tidy
  retired : s.Retired
  home : s.gone = true → s.stand = .home

theorem Closing.step (h : s.Closing) {event : Event} (patient : ¬ s.Hasty event) (attentive : ¬ s.Missed event) :
    (s.step event).Closing := by
  refine ⟨h.tidy.step event, ?_, home_stable s event h.home⟩
  have hretired := h.retired
  cases event with
  | call call => exact hretired.begin call
  | worker move =>
    change (s.work move).Retired
    obtain hsame | hworked := s.work_cases move
    · rwa [hsame]
    · exact hretired.worked h.tidy hworked
  | owner =>
    change s.advance.Retired
    have hgone : s.stand ≠ .home → s.gone = false := fun hstand => by
      by_contra hgone
      exact hstand (h.home (by simpa using hgone))
    unfold advance
    cases hstand : s.stand with
    | home => exact hretired
    | retiring call =>
      have hfenced := hretired.fence (hgone (by rw [hstand]; nofun))
      dsimp only
      split_ifs
      · exact hfenced.retired call
      · exact hfenced.standing
    | hinting call => exact hretired.hinted.retired call
    | draining call =>
      refine (hretired.receive fun hslot => ?_).standing
      by_contra hdevice
      exact patient ⟨rfl, by rw [hstand]; rfl, hslot, by simpa using hdevice⟩
    | noticing call =>
      exact (hretired.noticeFinished fun hstate hworker error hslot =>
        attentive ⟨rfl, by rw [hstand]; rfl, hstate, hworker, by rw [hslot]; rfl⟩).standing
    | concluding call => exact hretired.conclude h.tidy call

theorem closing_after (retry : OpenRetryPolicy) (events : List Event)
    (patient : ¬ Happens step Hasty (spawned retry) events) (attentive : ¬ Happens step Missed (spawned retry) events) :
    (after step (spawned retry) events).Closing := by
  induction events using List.reverseRecOn with
  | nil => exact ⟨tidy_spawned retry, retired_spawned retry, nofun⟩
  | append_singleton events event ih =>
    rw [happens_snoc, not_or] at patient attentive
    rw [after_append]
    exact (ih patient.1 attentive.1).step patient.2 attentive.2

/-! ### A shutdown after the worker has finished -/

theorem trySend_worker (s : Session) (request : Request) : (s.trySend request).2.worker = s.worker := by
  unfold trySend
  split_ifs <;> rfl

theorem conclude_worker (s : Session) (call : Call) : (s.conclude call).2.worker = s.worker := by
  have hjoin : s.join.worker = s.worker := by
    unfold join
    split_ifs <;> rfl
  cases call with
  | tryWrite bytes =>
    change (s.tryWrite bytes).2.worker = s.worker
    unfold tryWrite trySend
    split_ifs <;> rfl
  | tryRead length =>
    change (s.tryRead length).2.worker = s.worker
    unfold tryRead trySend
    dsimp only
    split_ifs <;> rfl
  | tryRecover =>
    change s.tryRecover.2.worker = s.worker
    unfold tryRecover
    split_ifs <;> rfl
  | openStatus | snapshot | retire => rfl
  | tryShutdown =>
    change s.tryShutdown.2.worker = s.worker
    unfold tryShutdown
    split_ifs
    · rfl
    · exact hjoin
  | drop => exact hjoin

theorem retired_worker (s : Session) (call : Call) : (s.retired call).worker = s.worker := by
  unfold retired
  split_ifs <;> rfl

theorem fence_worker (s : Session) : s.fence.worker = s.worker := by
  unfold fence
  dsimp only
  split_ifs <;> rfl

theorem advance_worker (s : Session) : s.advance.worker = s.worker := by
  unfold advance
  cases s.stand with
  | home => rfl
  | retiring call =>
    dsimp only
    split_ifs
    · exact (retired_worker _ call).trans (fence_worker s)
    · exact fence_worker s
  | hinting call => exact (retired_worker _ call).trans (trySend_worker s _)
  | draining call =>
    change s.receive.worker = s.worker
    unfold receive
    split <;> rfl
  | noticing call =>
    change s.noticeFinished.worker = s.worker
    unfold noticeFinished
    split_ifs <;> rfl
  | concluding call => exact conclude_worker s call

theorem begin_worker (s : Session) (call : Call) : (s.begin call).worker = s.worker := by
  unfold begin
  split_ifs
  · cases call <;> rfl
  · rfl

def Event.ofOwner : Event → Bool
  | .worker _ => false
  | _ => true

theorem Worked.not_finished (hw : s.Worked s') : s.worker.phase ≠ .finished := by
  intro hphase
  cases hw <;> simp_all [Phase.looksAtStop, Phase.calls]

/-- A finished worker moves no more. -/
theorem after_finished {events : List Event} (h : s.worker.phase = .finished) :
    after step s events = after step s (events.filter Event.ofOwner) := by
  induction events generalizing s with
  | nil => rfl
  | cons event events ih =>
    cases event with
    | worker move =>
      have hidle : s.work move = s := by
        exact (s.work_cases move).resolve_right fun hworked => hworked.not_finished h
      change after step (s.work move) events = after step s (events.filter Event.ofOwner)
      rw [hidle]
      exact ih h
    | call call => exact ih ((congrArg Worker.phase (begin_worker s call)).trans h)
    | owner => exact ih ((congrArg Worker.phase (advance_worker s)).trans h)

/-- The steps of one shutdown. -/
def shutdownCall : List Event := .call .tryShutdown :: List.replicate 5 .owner

theorem settle_stays_closing (o : ComTransport) (r : TryRecv) (h : o.state = .closing) :
    (o.settle r).state = .closing ∨ (o.settle r).state = .closed := by
  unfold ComTransport.settle
  split <;> (try split_ifs) <;> simp_all

theorem receive_owner (s : Session) : ∃ r, s.receive.owner = s.owner.settle r ∧
    (r = .empty ∨ r = .disconnected ∨ ∃ c, r = .completion c ∧ s.completions = some c) := by
  cases hslot : s.completions with
  | none =>
    rw [receive_none hslot]
    refine ⟨_, rfl, ?_⟩
    split_ifs
    · exact .inl rfl
    · exact .inr (.inl rfl)
  | some c =>
    rw [receive_some hslot]
    exact ⟨_, rfl, .inr (.inr ⟨c, rfl, rfl⟩)⟩

/-- After a drain the transport of a finished worker is closed. -/
theorem Retired.drained (h : s.Retired) (finished : s.worker.phase = .finished) (gone : s.gone = false)
    (state : s.owner.state = .closing ∨ s.owner.state = .closed) : s.receive.noticeFinished.owner.state = .closed := by
  obtain ⟨r, howner, hr⟩ := s.receive_owner
  have hworker : s.receive.worker = s.worker := by
    unfold Session.receive
    split <;> rfl
  obtain hclosing | hclosed := state
  · have hunjoined : s.owner.joined = false := by
      by_contra hjoined
      obtain hstate | hgone := h.joined (by simpa using hjoined)
      · cases hclosing.symm.trans hstate
      · cases gone.symm.trans hgone
    have hfinished : s.receive.workerFinished = true := by
      unfold workerFinished
      rw [howner, settle_joined, hunjoined, hworker, finished]
      rfl
    unfold Session.noticeFinished
    split_ifs with hnotice
    · rfl
    · have hstate := settle_stays_closing s.owner r hclosing
      rw [← howner] at hstate
      exact hstate.resolve_left fun hs => hnotice ⟨hs, hfinished⟩
  · obtain ⟨-, hopened, hfailed⟩ := h.closed hclosed
    have hstays : s.receive.owner.state = .closed := by
      rw [howner]
      refine settle_stays _ _ hclosed (fun heq => ?_) fun error heq => ?_
      · obtain hr | hr | ⟨c, hr, hslot⟩ := hr <;> cases hr.symm.trans heq
        exact hopened hslot
      · obtain hr | hr | ⟨c, hr, hslot⟩ := hr <;> cases hr.symm.trans heq
        exact hfailed error hslot
    unfold Session.noticeFinished
    rw [if_neg (by rw [hstays]; exact fun hne => nomatch hne.1)]
    exact hstays

theorem receive_trace (s : Session) : s.receive.trace = s.trace := by
  unfold receive
  split <;> rfl

theorem noticeFinished_trace (s : Session) : s.noticeFinished.trace = s.trace := by
  unfold noticeFinished
  split_ifs <;> rfl

theorem noticeFinished_stand (s : Session) (stand : Stand) :
    noticeFinished { s with stand } = { s.noticeFinished with stand } := by
  unfold noticeFinished workerFinished
  dsimp only
  split_ifs <;> rfl

theorem tryShutdown_closed (h : s.owner.state = .closed) : s.tryShutdown = (.complete, s.join) := by
  unfold tryShutdown
  rw [if_neg (not_not.2 h)]

theorem join_trace (s : Session) : s.join.trace = s.trace := by
  unfold join
  split_ifs <;> rfl

/-- The drain and the rest of a shutdown. -/
theorem Retired.completes (h : s.Retired) (finished : s.worker.phase = .finished) (gone : s.gone = false)
    (state : s.owner.state = .closing ∨ s.owner.state = .closed) (stand : s.stand = .draining .tryShutdown) :
    (after Session.step s (List.replicate 3 .owner)).trace = s.trace ++ [.returned .tryShutdown (.shutdown .complete)] ∧
      (after Session.step s (List.replicate 3 .owner)).stand = .home := by
  have hdrain : s.advance = { s.receive with stand := .noticing .tryShutdown } := by
    unfold advance
    rw [stand]
  have hnotice : s.advance.advance = { s.receive.noticeFinished with stand := .concluding .tryShutdown } := by
    rw [hdrain]
    exact congrArg (fun n : Session => { n with stand := .concluding .tryShutdown })
      (noticeFinished_stand s.receive (.noticing .tryShutdown))
  have hclosed : s.advance.advance.owner.state = .closed := by
    rw [hnotice]
    exact h.drained finished gone state
  have hlast : s.advance.advance.advance = s.advance.advance.join.finish (.returned .tryShutdown (.shutdown .complete)) := by
    have hstand : s.advance.advance.stand = .concluding .tryShutdown := by rw [hnotice]
    generalize s.advance.advance = n at hstand hclosed
    unfold advance
    rw [hstand]
    change { (n.tryShutdown.2).note (.returned .tryShutdown (.shutdown n.tryShutdown.1)) with stand := .home } = _
    rw [tryShutdown_closed hclosed]
    rfl
  change s.advance.advance.advance.trace = _ ∧ s.advance.advance.advance.stand = _
  rw [hlast]
  refine ⟨?_, rfl⟩
  change s.advance.advance.join.trace ++ _ = _
  rw [join_trace, hnotice]
  change s.receive.noticeFinished.trace ++ _ = _
  rw [noticeFinished_trace, receive_trace]

theorem retired_shutdown (s : Session) : s.retired .tryShutdown = { s with stand := .draining .tryShutdown } := by
  unfold retired
  rw [if_neg nofun]

theorem fence_state (s : Session) : s.fence.trace = s.trace ++ [.stopRequested] ∧
    (s.fence.owner.state = .closing ∨ s.fence.owner.state = .closed) := by
  unfold fence
  dsimp only
  split_ifs with hclosed
  · exact ⟨rfl, .inr hclosed⟩
  · exact ⟨rfl, .inl rfl⟩

theorem trySend_owner (s : Session) (request : Request) :
    (s.trySend request).2.owner = s.owner ∧ (s.trySend request).2.trace = s.trace := by
  unfold trySend
  split_ifs <;> exact ⟨rfl, rfl⟩

/-- The retirement of a shutdown takes one step or two. -/
theorem Retired.shutdown (h : s.Retired) (finished : s.worker.phase = .finished) (gone : s.gone = false)
    (stand : s.stand = .retiring .tryShutdown) :
    (after Session.step s (List.replicate 5 .owner)).trace =
      s.trace ++ [.stopRequested, .returned .tryShutdown (.shutdown .complete)] := by
  obtain ⟨htrace, hstate⟩ := fence_state s
  have hfenced := h.fence gone
  have hworker := congrArg Worker.phase (fence_worker s)
  by_cases hclosed : s.owner.state = .closed
  · have hadvance : s.advance = { s.fence with stand := .draining .tryShutdown } := by
      unfold advance
      rw [stand]
      dsimp only
      rw [if_pos hclosed, retired_shutdown]
    have hretired : s.advance.Retired := hadvance ▸ hfenced.standing
    generalize hs : s.advance = n at *
    obtain ⟨hrest, hhome⟩ := hretired.completes (by rw [hadvance]; exact hworker.trans finished)
      (by rw [hadvance]; exact (fence_gone s).trans gone) (by rw [hadvance]; exact hstate) (by rw [hadvance])
    have hlast : (after Session.step s (List.replicate 5 .owner)) = (after Session.step n (List.replicate 3 .owner)).advance := by
      rw [← hs]
      rfl
    have hidle : (after Session.step n (List.replicate 3 .owner)).advance = after Session.step n (List.replicate 3 .owner) := by
      generalize after Session.step n (List.replicate 3 .owner) = m at *
      unfold advance
      rw [hhome]
    rw [hlast, hidle, hrest, hadvance]
    change s.fence.trace ++ _ = _
    rw [htrace, List.append_assoc]
    rfl
  · have hadvance : s.advance = { s.fence with stand := .hinting .tryShutdown } := by
      unfold advance
      rw [stand]
      dsimp only
      rw [if_neg hclosed]
    have hhinted : s.advance.advance = { (s.advance.trySend .stop).2 with stand := .draining .tryShutdown } := by
      rw [hadvance]
      exact retired_shutdown _
    have hretired : s.advance.advance.Retired := by
      rw [hhinted, hadvance]
      exact Retired.standing (Retired.hinted hfenced.standing)
    obtain ⟨hrest, -⟩ := hretired.completes
      (by rw [hhinted, hadvance]; exact (congrArg Worker.phase (trySend_worker _ _)).trans (hworker.trans finished))
      (by rw [hhinted, hadvance]; exact (trySend_gone _ _).trans ((fence_gone s).trans gone))
      (by rw [hhinted, hadvance]; exact (trySend_owner { s.fence with stand := .hinting .tryShutdown } .stop).1 ▸ hstate)
      (by rw [hhinted])
    change (after Session.step s.advance.advance (List.replicate 3 .owner)).trace = _
    rw [hrest, hhinted, hadvance]
    change (trySend { s.fence with stand := .hinting .tryShutdown } .stop).2.trace ++ _ = _
    rw [(trySend_owner _ _).2]
    change s.fence.trace ++ _ = _
    rw [htrace, List.append_assoc]
    rfl

/-- In a run in which no `Stopped` is taken from a worker that still owns the device and no failed open is
overlooked at a finished worker, a completed shutdown has let go of the port for good, and a shutdown of a
finished worker is complete, whatever was left in the channels. -/
theorem shutdown_lets_go (retry : OpenRetryPolicy) (events : List Event)
    (patient : ¬ Happens Session.step Hasty (spawned retry) events)
    (attentive : ¬ Happens Session.step Missed (spawned retry) events) :
    let s := after Session.step (spawned retry) events
    (.returned .tryShutdown (.shutdown .complete) ∈ s.trace → s.worker.device = false ∧ s.worker.phase.ended = true) ∧
      (s.worker.phase = .finished → s.stand = .home → s.gone = false → ∀ more, more.filter Event.ofOwner = shutdownCall →
        (after Session.step s more).trace = s.trace ++ [.stopRequested, .returned .tryShutdown (.shutdown .complete)]) := by
  intro s
  have h : s.Closing := closing_after retry events patient attentive
  refine ⟨fun hmem => (h.retired.complete hmem).symm, fun hfinished hhome hgone more hmore => ?_⟩
  have hbegin : s.begin .tryShutdown = { s with stand := .retiring .tryShutdown } := by
    unfold Session.begin
    rw [if_pos ⟨hhome, hgone⟩]
  rw [after_finished hfinished, hmore]
  change (after Session.step (s.begin .tryShutdown) (List.replicate 5 .owner)).trace = _
  rw [hbegin]
  exact h.retired.standing.shutdown hfinished hgone rfl

/-! ### Runs -/

/-- The worker drops what it owns and ends. -/
def leaveRun : List Event :=
  [.worker .dropDevice, .worker .dropRequests, .worker .dropCompletions, .worker .step]

/-- A shutdown that the worker answers in its own time. -/
def orderlyRun : List Event :=
  openRun ++ call .openStatus ++ [.call .tryShutdown, .owner, .owner, .worker .step, .worker .step, .worker .step] ++
    leaveRun ++ List.replicate 3 .owner

theorem shutdown_lets_go_orderly : .returned .tryShutdown (.shutdown .complete) ∈ (sessionAfter orderlyRun).trace ∧
    (sessionAfter orderlyRun).worker.device = false := by
  have h := shutdown_lets_go (.singleAttempt 0) orderlyRun (by decide +kernel) (by decide +kernel)
  exact ⟨by decide +kernel, (h.1 (by decide +kernel)).1⟩

/-- The owner takes `Stopped` before the worker has dropped the device. -/
def hastyRun : List Event :=
  openRun ++ call .openStatus ++ [.call .tryShutdown, .owner, .owner, .worker .step, .worker .step, .worker .step] ++
    List.replicate 3 .owner

/-- The open fails, and the worker ends, between the receive and the look at the join handle of one drain. -/
def missedRun : List Event :=
  [.worker .step, .call .tryShutdown, .owner, .owner, .owner, .worker (.attempted (.error .other) 0 0), .worker .step] ++
    leaveRun ++ [.owner, .owner] ++ shutdownCall ++ shutdownCall

theorem shutdown_keeps_device : (sessionAfter hastyRun).worker.device = true ∧
    (sessionAfter hastyRun).trace.drop 1 = [.stopRequested, .returned .tryShutdown (.shutdown .complete)] ∧
    (sessionAfter missedRun).worker.phase = .finished ∧
    (sessionAfter missedRun).trace = [.stopRequested, .returned .tryShutdown (.shutdown .complete),
      .stopRequested, .returned .tryShutdown (.shutdown .pending),
      .stopRequested, .returned .tryShutdown (.shutdown .pending)] := by
  decide +kernel

end Session

end LabRuntime.Com
