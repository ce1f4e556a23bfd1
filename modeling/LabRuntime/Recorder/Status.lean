import LabRuntime.Recorder.Agreement

/-! What the polled status claims, against what the store has committed. -/

namespace LabRuntime.Recorder

open History

variable {layout : FactLayout} {A : System layout → Act → Prop} {s s' : System layout}

/-! ### Receipts in the order they are published -/

namespace Storage

/-- After the finish the loop executes nothing. -/
def finishing : Phase → Bool
  | .stored work _ => isFinish work
  | phase => phase.over

structure Latest (s : Storage) : Prop where
  newest : ∀ receipt, s.Shown receipt → receipt.persisted ≤ s.receipt.persisted
  finished : (∃ m ∈ s.settled, m.isFinish = true) →
    finishing s.phase = true ∧ ∃ pre m, s.settled = pre ++ [m] ∧ m.isFinish = true

/-- Values of the receipt follow one another, and a worker that is down changes no number. -/
structure Posted (s s' : Storage) : Prop where
  shown : ∀ receipt, s'.Shown receipt → s.Shown receipt ∨ receipt = s'.receipt
  down : s.phase.receiving = false → s'.phase.receiving = false ∧ s'.receipt.persisted = s.receipt.persisted ∧
    s'.receipt.runNo = s.receipt.runNo
  newer : s.receipt.persisted ≤ s'.receipt.persisted

/-- What a move of the worker does to the receipt: it fails it only when it stops. -/
structure Moved (s s' : Storage) : Prop extends Posted s s' where
  failed : s'.receipt.state = .failed → s.receipt.state = .failed ∨ s'.phase.receiving = false

variable {s s' : Storage}

theorem moved_of_same (hreceipt : s'.receipt = s.receipt) (hpublished : s'.published = s.published)
    (hdown : s.phase.receiving = false → s'.phase.receiving = false) : Moved s s' where
  shown receipt hshown := .inl (by unfold Shown at hshown; rwa [hreceipt, hpublished] at hshown)
  failed h := .inl (hreceipt ▸ h)
  down h := ⟨hdown h, by rw [hreceipt], by rw [hreceipt]⟩
  newer := by rw [hreceipt]

theorem posted_post {f : Receipt → Receipt} {phase : Phase}
    (hdown : s.phase.receiving = false → phase.receiving = false ∧ (f s.receipt).persisted = s.receipt.persisted ∧
      (f s.receipt).runNo = s.receipt.runNo)
    (hnewer : s.receipt.persisted ≤ (f s.receipt).persisted) : Posted s { s.post f with phase } where
  shown receipt hshown := by
    obtain rfl | hshown := hshown
    · exact .inr rfl
    · obtain hold | hnew := List.mem_append.1 hshown
      · exact .inl (.inr hold)
      · exact .inr (List.mem_singleton.1 hnew)
  down := hdown
  newer := hnewer

theorem moved_collapsed (s : Storage) (error : StorageError) : Moved s (s.collapsed error) :=
  ⟨posted_post (fun _ => ⟨rfl, rfl, rfl⟩) le_rfl, fun _ => .inr rfl⟩

/-- No publication lowers the persisted number or fails the receipt. -/
theorem publish_moved {work : Work} {deferred : Option Message} {receipt : Receipt} (hs : s.Receipted) (ho : s.Ordered)
    (phase : s.phase = .stored work deferred) (ok : s.receipt.publish s.store work = .ok receipt) (phase' : Phase) :
    Moved s { s.post (fun _ => receipt) with phase := phase' } := by
  have hcurrent := hs.current
  unfold Current at hcurrent
  rw [phase] at hcurrent
  obtain ⟨covered, hsettled, hsome, hcovers⟩ := hcurrent
  have hpublished := hcovers.publish ok hsome (hsettled ▸ ho.chained) (hsettled ▸ ho.stored) (hsettled ▸ ho.placed)
    (hsettled ▸ ho.agrees)
  refine ⟨posted_post (fun hdown => by rw [phase] at hdown; cases hdown) ?_, fun hfailed => .inl ?_⟩
  rotate_left
  · cases work with
    | batch groups => cases ok; exact hfailed
    | one message =>
      cases message with
      | activation root lifecycle =>
        change s.receipt.activated root lifecycle = .ok receipt at ok
        unfold Receipt.activated at ok
        simp only [following_bind, require_bind] at ok
        obtain ⟨-, -, ok⟩ := ok
        cases lifecycle <;> (cases ok; exact hfailed)
      | start | stop => cases ok; cases hfailed
      | _ => cases ok; exact hfailed
  · rw [hcovers.persisted]
    split_ifs at hpublished
    · rw [hpublished.persisted]
    · rw [hpublished.persisted, Spans.total_append]
      exact Nat.le_add_right _ _

theorem Worked.moved (h : s.Worked s') (hs : s.Receipted) (ho : s.Ordered) : Moved s s' := by
  cases h with
  | rejected work deferred error phase refused | mismatched work deferred error phase refused => exact moved_collapsed s error
  | published work deferred receipt phase ok => exact publish_moved hs ho phase ok _
  | left lost phase =>
    refine ⟨posted_post (fun _ => ⟨rfl, ?_, ?_⟩) ?_, fun _ => .inr rfl⟩ <;>
      (unfold lastReceipt; split_ifs <;> rfl)
  | finished down => exact moved_of_same rfl rfl id
  | retired lost phase | closed lost phase => exact moved_of_same rfl rfl fun _ => rfl
  | _ phase => exact moved_of_same rfl rfl (by simp_all [Phase.receiving])

theorem Broken.moved (h : s.Broken s') : Moved s s' := by
  cases h with
  | faulted error running => exact moved_collapsed s error
  | panicked running => exact moved_of_same rfl rfl fun _ => rfl

theorem work_moved (s : Storage) (move : WorkerMove) (hs : s.Receipted) (ho : s.Ordered) : Moved s (s.work move) :=
  work_keeps (Moved s) move (moved_of_same rfl rfl id) (fun _ h => h.moved hs ho) fun _ _ h => h.moved

theorem Latest.newest_of (h : s.Latest) (hposted : Posted s s') :
    ∀ receipt, s'.Shown receipt → receipt.persisted ≤ s'.receipt.persisted := fun receipt hshown => by
  obtain hold | rfl := hposted.shown receipt hshown
  · exact (h.newest receipt hold).trans hposted.newer
  · exact le_rfl

/-- The loop settles nothing after the finish. -/
theorem Latest.work (h : s.Latest) (move : WorkerMove) (hs : s.Receipted) (ho : s.Ordered) : (s.work move).Latest := by
  refine ⟨h.newest_of (s.work_moved move hs ho).toPosted, ?_⟩
  have hover : finishing s.phase = false → ¬ ∃ m ∈ s.settled, m.isFinish = true := fun hphase hfinish => by
    rw [(h.finished hfinish).1] at hphase
    cases hphase
  refine work_keeps (fun s' => (∃ m ∈ s'.settled, m.isFinish = true) →
    finishing s'.phase = true ∧ ∃ pre m, s'.settled = pre ++ [m] ∧ m.isFinish = true) move h.finished
    (fun s' hworked hfinish => ?_) fun s' _ hbroken hfinish => ?_
  · cases hworked with
    | executed work deferred store phase committed =>
      obtain ⟨m, hm, hkind⟩ := hfinish
      obtain hm | hm := List.mem_append.1 hm
      · exact absurd ⟨m, hm, hkind⟩ (hover (by rw [phase]; rfl))
      · cases work with
        | batch groups =>
          obtain ⟨group, -, rfl⟩ := List.mem_map.1 hm
          cases hkind
        | one message =>
          obtain rfl := List.mem_singleton.1 hm
          refine ⟨?_, s.settled, m, rfl, hkind⟩
          cases m <;> first | rfl | cases hkind
    | deferredJob message phase job | queuedJob message queue phase head job =>
      obtain ⟨m, hm, hkind⟩ := hfinish
      obtain hm | hm := List.mem_append.1 hm
      · exact absurd ⟨m, hm, hkind⟩ (hover (by rw [phase]; rfl))
      · obtain rfl := List.mem_singleton.1 hm
        have hother : m.isFinish = false := by cases m <;> first | rfl | cases job
        rw [hother] at hkind
        cases hkind
    | published work deferred receipt phase ok =>
      obtain ⟨hphase, hlast⟩ := h.finished hfinish
      rw [phase] at hphase
      refine ⟨?_, hlast⟩
      rw [if_pos (show isFinish work = true from hphase)]
      rfl
    | finished down => exact h.finished hfinish
    | left lost phase | retired lost phase | closed lost phase => exact ⟨rfl, (h.finished hfinish).2⟩
    | rejected work deferred error phase refused | mismatched work deferred error phase refused =>
      exact ⟨rfl, (h.finished hfinish).2⟩
    | _ phase => exact absurd hfinish (hover (by simp_all [finishing, Phase.over]))
  · cases hbroken <;> exact ⟨rfl, (h.finished hfinish).2⟩

theorem latest_opened : Storage.opened.Latest where
  newest receipt hshown := by
    obtain rfl | hshown := hshown
    · exact le_rfl
    · rw [List.mem_singleton.1 hshown]
      exact le_rfl
  finished h := by
    obtain ⟨m, hm, -⟩ := h
    cases hm

end Storage

/-! ### A failed run is not reported complete -/

/-- Nothing that is recorded is sent and no credit is taken after a finish, which is sent with no
reservation held, and the recorder does not fail while a start is unconfirmed. -/
def Honest (s : System layout) : Act → Prop
  | .send m => (s.owner.finishRequested = true → m.records = 0 ∨ s.owner.cached.state = .failed) ∧
      (m.isFinish = true → s.owner.liveActivationReservation = none ∧ s.owner.reservedFactGroups = [] ∨
        s.owner.cached.state = .failed)
  | .reserve => s.owner.finishRequested = false
  | .fail => s.owner.cached.state ≠ .starting
  | _ => True

/-- Prefixes under one persisted number hold the same barriers. -/
theorem Course.barriers_le {done done' : List Message} (h : Course s done) (h' : Course s' done')
    (hsettled : s.storage.settled <+: s'.storage.settled)
    (hpersisted : s.owner.cached.persistedThroughSequence ≤ s'.owner.cached.persistedThroughSequence) :
    barriers done ≤ barriers done' := by
  refine Recorder.barriers_le (h.settled.trans hsettled) h'.settled ?_
  rw [← h.persisted, ← h'.persisted]
  exact hpersisted

/-- No receipt has a run to tell of. -/
def Runless (s : System layout) : Prop := ∀ receipt, s.storage.Shown receipt →
  s.owner.cached.persistedThroughSequence ≤ receipt.persisted → receipt.runNo = none

/-- No start or stop is unconfirmed, and no run is open. -/
def Rested (s : System layout) : Prop := ∀ done, Course s done → Even (barriers done) ∧ barriers s.storage.sent = barriers done

structure Watched (s : System layout) : Prop extends Lifecycle s where
  latest : s.storage.Latest
  failures : s.owner.cached.state ≠ .failed → ∀ receipt, s.storage.Shown receipt → receipt.state = .failed →
    s.storage.phase.receiving = false ∧ receipt.persisted = s.storage.receipt.persisted
  stopped : s.owner.cached.state = .idle ∨ s.owner.cached.state = .starting → s.owner.cached.runNo = none
  started : s.owner.cached.state = .recording ∨ s.owner.cached.state = .stopping → s.owner.cached.runNo.isSome = true
  finishes : s.owner.cached.state ≠ .failed → ∀ pre m post, s.storage.sent = pre ++ m :: post → m.isFinish = true →
    Even (barriers pre) ∧ ∀ done, Course s done → barriers pre ≤ barriers done
  lost : s.owner.cached.state = .failed → s.owner.cached.coverage = .complete →
    s.owner.cached.runNo = none ∧ (Rested s ∨ s.storage.phase.receiving = false ∧ Runless s)

theorem Receipt.Tells.runless {receipt : Receipt} {covered : List Message} (h : receipt.Tells covered)
    (heven : Even (barriers covered)) : receipt.runNo = none := by
  rw [← Option.not_isSome_iff_eq_none, h.run]
  exact fun hrun => hrun.1 heven

/-- After the finish no receipt tells of a run. -/
theorem Watched.runless (h : Watched s) (hstate : s.owner.cached.state ≠ .failed)
    (hfinish : ∃ m ∈ s.storage.settled, m.isFinish = true) : Runless s := by
  obtain ⟨-, pre, m, hsettled, hkind⟩ := h.latest.finished hfinish
  obtain ⟨done, hdone⟩ := h.course
  have hsent : s.storage.sent = pre ++ m :: (s.storage.phase.inHand ++ s.storage.queue) := by
    unfold Storage.sent
    rw [hsettled]
    simp
  obtain ⟨heven, hconfirmed⟩ := h.finishes hstate pre m _ hsent hkind
  intro receipt hshown hpersisted
  obtain ⟨covered, hfront, hcovers⟩ := h.receipted.shown hshown
  refine hcovers.tells.runless ?_
  have hle : barriers done ≤ barriers covered := by
    refine Recorder.barriers_le hdone.settled hfront ?_
    rw [← hdone.persisted, ← hcovers.persisted]
    exact hpersisted
  have hge : barriers covered ≤ barriers pre := by
    have hcount : barriers covered ≤ barriers s.storage.settled := hfront.sublist.countP_le
    have hbarrier : m.barrier = false := by cases m <;> first | rfl | cases hkind
    rw [hsettled, barriers_append, barriers_cons, hbarrier] at hcount
    simpa using hcount
  have := hconfirmed done hdone
  rwa [show barriers covered = barriers pre by omega]

theorem Rested.of_course (h : Rested s) (hlifecycle : Lifecycle s) (hsettled : s.storage.settled <+: s'.storage.settled)
    (hpersisted : s'.owner.cached.persistedThroughSequence = s.owner.cached.persistedThroughSequence)
    (hsent : barriers s'.storage.sent = barriers s.storage.sent) : Rested s' := fun done' hdone' => by
  obtain ⟨done, hdone⟩ := hlifecycle.course
  obtain ⟨heven, hsame⟩ := h done hdone
  have hle := hdone.barriers_le hdone' hsettled hpersisted.ge
  have hge : barriers done' ≤ barriers done := by
    refine Recorder.barriers_le hdone'.settled (hdone.settled.trans hsettled) ?_
    rw [← hdone.persisted, ← hdone'.persisted, hpersisted]
  rw [show barriers done' = barriers done by omega, hsent]
  exact ⟨heven, hsame⟩

/-- Receipts published since tell of no run either, where the worker is down. -/
theorem Runless.of_posted (h : Runless s) (hdown : s.storage.phase.receiving = false)
    (hposted : Storage.Posted s.storage s'.storage)
    (hpersisted : s'.owner.cached.persistedThroughSequence = s.owner.cached.persistedThroughSequence) : Runless s' :=
  fun receipt hshown hle => by
    obtain hold | rfl := hposted.shown receipt hshown
    · exact h receipt hold (hpersisted ▸ hle)
    · obtain ⟨-, hsame, hrun⟩ := hposted.down hdown
      rw [hrun]
      exact h _ (.inl rfl) (by rw [← hsame]; exact hpersisted ▸ hle)

/-- The owner's part in the lifecycle stays, and the worker may have moved. -/
theorem Watched.of_moved (h : Watched s) (hlifecycle : Lifecycle s') (hlatest : s'.storage.Latest)
    (hmoved : Storage.Moved s.storage s'.storage) (hcached : s'.owner.cached.state = s.owner.cached.state ∧
      s'.owner.cached.persistedThroughSequence = s.owner.cached.persistedThroughSequence ∧
      s'.owner.cached.runNo = s.owner.cached.runNo ∧ s'.owner.cached.coverage = s.owner.cached.coverage)
    (hsent : s'.storage.sent = s.storage.sent) (hsettled : s.storage.settled <+: s'.storage.settled) : Watched s' := by
  obtain ⟨hstate, hpersisted, hrun, hcoverage⟩ := hcached
  refine ⟨hlifecycle, hlatest, fun hlive receipt hshown hfailed => ?_, by rw [hstate, hrun]; exact h.stopped,
    by rw [hstate, hrun]; exact h.started, fun hlive pre m post heq hkind => ?_, fun hfailed hcomplete => ?_⟩
  · rw [hstate] at hlive
    obtain hold | rfl := hmoved.shown receipt hshown
    · obtain ⟨hdown, hsame⟩ := h.failures hlive receipt hold hfailed
      obtain ⟨hdown', hsame', -⟩ := hmoved.down hdown
      exact ⟨hdown', hsame.trans hsame'.symm⟩
    · refine ⟨?_, rfl⟩
      obtain hbefore | hdown := hmoved.failed hfailed
      · exact (hmoved.down (h.failures hlive _ (.inl rfl) hbefore).1).1
      · exact hdown
  · obtain ⟨heven, hconfirmed⟩ := h.finishes (hstate ▸ hlive) pre m post (hsent ▸ heq) hkind
    refine ⟨heven, fun done' hdone' => ?_⟩
    obtain ⟨done, hdone⟩ := h.course
    exact (hconfirmed done hdone).trans (hdone.barriers_le hdone' hsettled hpersisted.ge)
  · obtain ⟨hnone, hrested | ⟨hdown, hrunless⟩⟩ := h.lost (hstate ▸ hfailed) (hcoverage ▸ hcomplete)
    · exact ⟨hrun.trans hnone, .inl (hrested.of_course h.toLifecycle hsettled hpersisted (by rw [hsent]))⟩
    · exact ⟨hrun.trans hnone, .inr ⟨(hmoved.down hdown).1, hrunless.of_posted hdown hmoved.toPosted hpersisted⟩⟩

theorem Watched.send {m : Message} {o : RecorderWorker layout} (h : Watched s)
    (hreceiving : s.storage.phase.receiving = true) (offer : s.owner.Offer m o) :
    Watched { s with owner := o, storage := { s.storage with queue := s.storage.queue ++ [m] } } := by
  have hsent : ({ s.storage with queue := s.storage.queue ++ [m] } : Storage).sent = s.storage.sent ++ [m] :=
    (List.append_assoc _ _ _).symm
  have hlifecycle := h.toLifecycle.send hreceiving offer
  obtain ⟨hcoverage, -, hfailed⟩ := Offer.cached offer
  have hpersisted : o.cached.persistedThroughSequence = s.owner.cached.persistedThroughSequence := by cases offer <;> rfl
  have hrun : o.cached.runNo = s.owner.cached.runNo := by cases offer <;> rfl
  have hcourse : ∀ done', Course ({ s with owner := o, storage := { s.storage with queue := s.storage.queue ++ [m] } } :
      System layout) done' → ∃ done, Course s done ∧ barriers done ≤ barriers done' := fun done' hdone' => by
    obtain ⟨done, hdone⟩ := h.course
    exact ⟨done, hdone, hdone.barriers_le hdone' List.prefix_rfl hpersisted.ge⟩
  refine ⟨hlifecycle, ⟨h.latest.newest, h.latest.finished⟩, fun hlive => h.failures fun hstate => hlive (hfailed hstate), ?_, ?_,
    fun hlive pre m' post heq hkind => ?_, fun hstate hcomplete => ?_⟩
  · cases offer with
    | start label submittedAt boundary first last idle => exact fun _ => h.stopped (.inl idle)
    | stop => exact fun hstate => by cases hstate <;> contradiction
    | _ => exact h.stopped
  · cases offer with
    | stop summary requestedAt first last recording => exact fun _ => h.started (.inl recording)
    | start => exact fun hstate => by cases hstate <;> contradiction
    | _ => exact h.started
  · have hlive' : s.owner.cached.state ≠ .failed := fun hstate => hlive (hfailed hstate)
    suffices hbefore : Even (barriers pre) ∧ ∀ done, Course s done → barriers pre ≤ barriers done from
      ⟨hbefore.1, fun done' hdone' => by
        obtain ⟨done, hdone, hle⟩ := hcourse done' hdone'
        exact (hbefore.2 done hdone).trans hle⟩
    dsimp only at heq
    rw [hsent] at heq
    rcases List.eq_nil_or_concat post with rfl | ⟨post, g, rfl⟩
    · -- the finish itself is sent
      obtain ⟨rfl, hm⟩ := List.append_inj' heq rfl
      obtain rfl : m = m' := by simpa using hm
      cases offer with
      | finish summary time first last ended fresh free short next =>
        have hidle : s.owner.cached.state = .idle := ended.resolve_right hlive'
        refine ⟨(h.toLifecycle.stopped hreceiving hidle).1, fun done hdone => ?_⟩
        have hstands := hdone.stands (.inl hreceiving)
        rw [hidle] at hstands
        exact hstands.2.le
      | _ => cases hkind
    · rw [show pre ++ m' :: post.concat g = (pre ++ m' :: post) ++ [g] by simp] at heq
      exact h.finishes hlive' pre m' post (List.append_inj' heq rfl).1 hkind
  · -- a failed owner sends no barrier
    have hbefore : s.owner.cached.state = .failed ∧ m.barrier = false := by
      cases offer with
      | start => cases hstate
      | stop => cases hstate
      | _ => exact ⟨hstate, rfl⟩
    obtain ⟨hnone, hrested | ⟨hdown, -⟩⟩ := h.lost hbefore.1 (hcoverage ▸ hcomplete)
    · refine ⟨hrun.trans hnone, .inl (hrested.of_course h.toLifecycle List.prefix_rfl hpersisted ?_)⟩
      dsimp only
      rw [hsent, barriers_append, barriers_cons, hbefore.2]
      rfl
    · rw [hreceiving] at hdown
      cases hdown

/-- Two receipts under one persisted number tell the same of a run. -/
theorem runNo_eq {receipt receipt' : Receipt} {covered covered' settled : List Message} (h : receipt.Covers covered)
    (h' : receipt'.Covers covered') (hfront : covered <+: settled) (hfront' : covered' <+: settled)
    (hpersisted : receipt.persisted = receipt'.persisted) (hnone : receipt.runNo = none) : receipt'.runNo = none := by
  rw [h.persisted, h'.persisted] at hpersisted
  have hrunning : ∀ {ms ns : List Message}, ms <+: ns → Spans.total Message.records ms = Spans.total Message.records ns →
      (Running ms ↔ Running ns) := by
    rintro ms - ⟨rest, rfl⟩ htotal
    rw [Spans.total_append] at htotal
    have hnothing : Spans.total Message.records rest = 0 := by omega
    have hgapless : Gapless rest := fun m hm => by
      have hrecords : m.records = 0 := by
        have hle := List.single_le_sum (fun _ _ => Nat.zero_le _) _ (List.mem_map_of_mem (f := Message.records) hm)
        unfold Spans.total at hnothing
        omega
      cases m <;> first | rfl | cases hrecords
    simp [Running, barriers_eq_zero hnothing, hgapless]
  rw [← Option.not_isSome_iff_eq_none, h'.tells.run]
  rw [← Option.not_isSome_iff_eq_none, h.tells.run] at hnone
  obtain hle | hle := List.prefix_or_prefix_of_prefix hfront hfront'
  · rwa [← hrunning hle hpersisted]
  · rwa [hrunning hle hpersisted.symm]

theorem adopt_runNo {o : RecorderWorker layout} (receipt : Receipt) : (o.adopt receipt).cached.runNo = receipt.runNo := rfl

/-- The state that a receipt leaves, by where it comes from. -/
theorem stateAfter_cases {o : RecorderWorker layout} (receipt : Receipt) (h : o.cached.state ≠ .failed) :
    o.stateAfter receipt = receipt.state ∨ o.stateAfter receipt = .starting ∧ receipt.state = .idle ∨
      o.stateAfter receipt = .stopping ∧ receipt.state = .recording := by
  unfold RecorderWorker.stateAfter
  split_ifs with hkept
  · obtain ⟨ho, hr⟩ | ⟨ho, hr⟩ | hfailed := hkept
    · exact .inr (.inl ⟨ho, hr⟩)
    · exact .inr (.inr ⟨ho, hr⟩)
    · exact absurd hfailed h
  · exact .inl rfl

theorem Watched.adopt {receipt : Receipt} {charged referenceCredit : Credit} (h : Watched s) (hshown : s.storage.Shown receipt)
    (hadopt : s.owner.Adoptable receipt charged referenceCredit)
    (hlifecycle : Lifecycle ({ s with
      owner := ({ s.owner with charged, referenceCredit } : RecorderWorker layout).adopt receipt } : System layout)) :
    Watched ({ s with owner := ({ s.owner with charged, referenceCredit } : RecorderWorker layout).adopt receipt } :
      System layout) := by
  generalize ho : ({ s.owner with charged, referenceCredit } : RecorderWorker layout) = o at hlifecycle ⊢
  have hcached : o.cached = s.owner.cached := by rw [← ho]
  have hpersisted : s.owner.cached.persistedThroughSequence ≤ receipt.persisted := hadopt.persisted
  obtain ⟨covered, hfront, hcovers⟩ := h.receipted.shown hshown
  have hle : ∀ done, Course s done → barriers done ≤ barriers covered := fun done hdone => by
    refine Recorder.barriers_le hdone.settled hfront ?_
    rw [← hdone.persisted, ← hcovers.persisted]
    exact hpersisted
  have hcoverage := adopt_coverage (o := o) receipt
  have hlive : (o.adopt receipt).cached.state ≠ .failed → s.owner.cached.state ≠ .failed := fun hlive =>
    hcached ▸ (hcoverage.2 hlive).1
  have hgapless : s.owner.cached.state ≠ .failed → Gapless covered := fun hstate m hm =>
    h.gapless (by_contra fun hgap => hstate (h.failed (by simpa using hgap))) m
      ((hfront.trans s.storage.settled_sent).subset hm)
  refine ⟨hlifecycle, h.latest, fun hstate => h.failures (hlive hstate), fun hstate => ?_, fun hstate => ?_,
    fun hstate pre m post heq hkind => ?_, fun hstate hcomplete => ?_⟩
  · have hbefore : s.owner.cached.state ≠ .failed := hlive (by obtain h | h := hstate <;> rw [h] <;> nofun)
    have hidle : receipt.state = .idle := by
      obtain heq | ⟨heq, hr⟩ | ⟨heq, hr⟩ := stateAfter_cases receipt (hcached ▸ hbefore)
      · obtain hstate | hstate := hstate
        · exact heq.symm.trans hstate
        · exact absurd (heq.symm.trans hstate) hcovers.tells.state.1
      · exact hr
      · obtain hstate | hstate := hstate <;> cases heq.symm.trans hstate
    exact hcovers.tells.runless (hcovers.tells.idle hidle)
  · have hbefore : s.owner.cached.state ≠ .failed := hlive (by obtain h | h := hstate <;> rw [h] <;> nofun)
    have hrecording : receipt.state = .recording := by
      obtain heq | ⟨heq, hr⟩ | ⟨heq, hr⟩ := stateAfter_cases receipt (hcached ▸ hbefore)
      · obtain hstate | hstate := hstate
        · exact heq.symm.trans hstate
        · exact absurd (heq.symm.trans hstate) hcovers.tells.state.2
      · obtain hstate | hstate := hstate <;> cases heq.symm.trans hstate
      · exact hr
    exact hcovers.tells.run.2 ⟨hcovers.tells.recording hrecording, hgapless hbefore⟩
  · obtain ⟨heven, hconfirmed⟩ := h.finishes (hlive hstate) pre m post heq hkind
    refine ⟨heven, fun done' hdone' => ?_⟩
    obtain ⟨done, hdone⟩ := h.course
    exact (hconfirmed done hdone).trans (hdone.barriers_le hdone' List.prefix_rfl hpersisted)
  · have hkept : o.cached.coverage = .complete ∧ ¬ (receipt.state = .failed ∧ receipt.runNo.isSome = true) := by
      change (if receipt.state = .failed ∧ o.cached.coverage = .complete ∧ receipt.runNo.isSome = true then Coverage.unknownTail
        else o.cached.coverage) = .complete at hcomplete
      split_ifs at hcomplete with hlost
      exact ⟨hcomplete, fun hr => hlost ⟨hr.1, hcomplete, hr.2⟩⟩
    by_cases hbefore : s.owner.cached.state = .failed
    · obtain ⟨-, hrested | ⟨hdown, hrunless⟩⟩ := h.lost hbefore (hcached ▸ hkept.1)
      · obtain ⟨done, hdone⟩ := h.course
        obtain ⟨heven, hsame⟩ := hrested done hdone
        have hge : barriers covered ≤ barriers s.storage.sent := (hfront.trans s.storage.settled_sent).sublist.countP_le
        have hbarriers : barriers covered = barriers done := by have := hle done hdone; omega
        refine ⟨hcovers.tells.runless (hbarriers ▸ heven), .inl fun done' hdone' => ?_⟩
        have hlow := hdone.barriers_le hdone' List.prefix_rfl hpersisted
        have hhigh : barriers done' ≤ barriers s.storage.sent :=
          (hdone'.settled.trans s.storage.settled_sent).sublist.countP_le
        dsimp only
        rw [show barriers done' = barriers done by omega]
        exact ⟨heven, hsame⟩
      · exact ⟨hrunless receipt hshown hpersisted, .inr ⟨hdown, fun r hr hler => hrunless r hr (hpersisted.trans hler)⟩⟩
    · -- the receipt of a worker that has stopped is the last one
      have hfailed : receipt.state = .failed := by
        obtain heq | ⟨heq, -⟩ | ⟨heq, -⟩ := stateAfter_cases receipt (hcached ▸ hbefore)
        · exact heq.symm.trans hstate
        · cases heq.symm.trans hstate
        · cases heq.symm.trans hstate
      have hnone : receipt.runNo = none := by
        rw [← Option.not_isSome_iff_eq_none]
        exact fun hsome => hkept.2 ⟨hfailed, hsome⟩
      obtain ⟨hdown, hlast⟩ := h.failures hbefore receipt hshown hfailed
      refine ⟨hnone, .inr ⟨hdown, fun r hr hler => ?_⟩⟩
      obtain ⟨covered', hfront', hcovers'⟩ := h.receipted.shown hr
      have hnewest := h.latest.newest r hr
      change receipt.persisted ≤ r.persisted at hler
      exact runNo_eq hcovers hcovers' hfront hfront' (by omega) hnone

theorem failing_complete {o : RecorderWorker layout} {message : StorageError}
    (h : (o.failing message).cached.coverage = .complete) : o.cached.coverage = .complete ∧ o.cached.runNo = none := by
  unfold RecorderWorker.failing at h
  dsimp only at h
  split_ifs at h with hlost
  refine ⟨h, ?_⟩
  rw [← Option.not_isSome_iff_eq_none]
  exact fun hsome => hlost ⟨h, hsome⟩

/-- A failure that leaves the coverage complete leaves no run behind. -/
theorem Watched.fail {message : StorageError} (h : Watched s) (granted : s.owner.cached.state ≠ .starting)
    (hlifecycle : Lifecycle ({ s with owner := s.owner.failing message } : System layout)) :
    Watched ({ s with owner := s.owner.failing message } : System layout) := by
  refine ⟨hlifecycle, h.latest, fun hlive => absurd rfl hlive, fun hstate => by cases hstate <;> contradiction,
    fun hstate => by cases hstate <;> contradiction, fun hlive => absurd rfl hlive, fun _ hcomplete => ?_⟩
  obtain ⟨hbefore, hnone⟩ := failing_complete hcomplete
  refine ⟨hnone, ?_⟩
  -- a state without a run is one in which no start is unconfirmed, or the worker is past its finish
  have hrest : s.owner.cached.state = .idle ∨ s.owner.cached.state = .closed →
      (Rested ({ s with owner := s.owner.failing message } : System layout)) ∨ s.storage.phase.receiving = false ∧ Runless s :=
    fun hstate => by
      by_cases hopen : s.storage.Open
      · left
        refine Rested.of_course (s := s) (fun done hdone => ?_) h.toLifecycle List.prefix_rfl rfl rfl
        have hstands := hdone.stands hopen
        obtain hstate | hstate := hstate <;> rw [hstate] at hstands
        · exact hstands
        · exact hstands.elim
      · obtain ⟨hdown, hfinish⟩ := not_or.1 hopen
        refine .inr ⟨by simpa using hdown, h.runless (by obtain h | h := hstate <;> rw [h] <;> nofun) ?_⟩
        by_contra hnever
        exact hfinish fun m hm => by
          by_contra hkind
          exact hnever ⟨m, hm, by simpa using hkind⟩
  cases hstate : s.owner.cached.state with
  | idle => exact hrest (.inl hstate)
  | closed => exact hrest (.inr hstate)
  | starting => exact absurd hstate granted
  | recording | stopping =>
    have hsome := h.started (by simp [hstate])
    rw [hnone] at hsome
    cases hsome
  | failed =>
    obtain ⟨-, hrested | hdown⟩ := h.lost hstate hbefore
    · exact .inl (hrested.of_course h.toLifecycle List.prefix_rfl rfl rfl)
    · exact .inr hdown

theorem watched_opened (limits : RecorderLimits) (now : ℕ) : Watched (.opened limits now : System layout) where
  toLifecycle := lifecycle_opened limits now
  latest := Storage.latest_opened
  failures _ receipt hshown hfailed := by
    obtain rfl | hshown := hshown
    · cases hfailed
    · rw [List.mem_singleton.1 hshown] at hfailed
      cases hfailed
  stopped _ := rfl
  started h := by cases h <;> contradiction
  finishes _ pre m post heq := by simp [System.opened, Storage.opened, Storage.sent, Phase.inHand] at heq
  lost h := by cases h

theorem Micro.watched (h : Micro Honest s s') (hs : Watched s) : Watched s' := by
  have hlifecycle := h.lifecycle hs.toLifecycle
  have hsame : Storage.Moved s.storage s.storage := Storage.moved_of_same rfl rfl id
  cases h with
  | worker move granted =>
    exact hs.of_moved hlifecycle (hs.latest.work move hs.receipted hs.ordered)
      (s.storage.work_moved move hs.receipted hs.ordered) ⟨rfl, rfl, rfl, rfl⟩ (s.storage.work_sent move)
      (s.storage.work_settled move)
  | sent message o offer granted receiving room => exact hs.send receiving offer
  | adopted receipt charged referenceCredit shown h => exact hs.adopt shown h hlifecycle
  | failed message cause granted => exact hs.fail granted hlifecycle
  | gapFailed gap fresh live valid granted =>
    refine ⟨hlifecycle, hs.latest, fun hlive => absurd rfl hlive, fun hstate => by cases hstate <;> contradiction,
      fun hstate => by cases hstate <;> contradiction, fun hlive => absurd rfl hlive, fun _ hcomplete => ?_⟩
    cases (failing_complete hcomplete).1
  | marked message failed =>
    have hposted : Storage.Posted s.storage (s.storage.post (·.fail message)) :=
      @Storage.posted_post s.storage (·.fail message) s.storage.phase (fun hdown => ⟨hdown, rfl, rfl⟩) le_rfl
    refine ⟨hlifecycle, ⟨hs.latest.newest_of hposted, hs.latest.finished⟩, fun hlive => absurd failed hlive, hs.stopped,
      hs.started, fun hlive => absurd failed hlive, fun hfailed hcomplete => ?_⟩
    obtain ⟨hnone, hrested | ⟨hdown, hrunless⟩⟩ := hs.lost hfailed hcomplete
    · exact ⟨hnone, .inl (hrested.of_course hs.toLifecycle List.prefix_rfl rfl rfl)⟩
    · exact ⟨hnone, .inr ⟨hdown, hrunless.of_posted hdown hposted rfl⟩⟩
  | reserved o h granted =>
    cases h <;> exact hs.of_moved hlifecycle hs.latest hsame ⟨rfl, rfl, rfl, rfl⟩ rfl List.prefix_rfl
  | changed o h =>
    cases h <;> exact hs.of_moved hlifecycle hs.latest hsame ⟨rfl, rfl, rfl, rfl⟩ rfl List.prefix_rfl
  | scheduled | panicked =>
    exact hs.of_moved hlifecycle hs.latest hsame ⟨rfl, rfl, rfl, rfl⟩ rfl List.prefix_rfl
  | refused | slots =>
    exact hs.of_moved hlifecycle ⟨hs.latest.newest, hs.latest.finished⟩ (Storage.moved_of_same rfl rfl id)
      ⟨rfl, rfl, rfl, rfl⟩ rfl List.prefix_rfl

/-! ### After the finish -/

theorem Storage.work_over (s : Storage) (move : WorkerMove) (h : s.phase.over = true) :
    (s.work move).phase.over = true ∧ (s.work move).settled = s.settled := by
  refine Storage.work_keeps (fun s' => s'.phase.over = true ∧ s'.settled = s.settled) move ⟨h, rfl⟩ (fun s' hworked => ?_)
    fun s' _ hbroken => ?_
  · cases hworked with
    | finished down => exact ⟨h, rfl⟩
    | left lost phase | retired lost phase | closed lost phase => exact ⟨rfl, rfl⟩
    | rejected | mismatched => exact ⟨rfl, rfl⟩
    | _ => simp_all [Phase.over]
  · cases hbroken <;> exact ⟨rfl, rfl⟩

/-- What the owner knows of the seal and of errors. -/
structure Cleared (s : System layout) : Prop where
  error : s.owner.cached.state = .failed → s.owner.cached.firstError ≠ none
  confirmed : ∀ time, s.owner.cached.confirmedSubmission = some time → ∃ m ∈ s.storage.settled, m.submission = some time
  unheld : s.owner.cached.firstError = none → s.owner.finishRequested = true →
    s.owner.liveActivationReservation = none ∧ s.owner.reservedFactGroups = [] ∧ s.owner.referenceCompletion = none
  trailing : s.owner.cached.firstError = none →
    Hitherto (fun pre m => (∃ f ∈ pre, f.isFinish = true) → m.records = 0) s.storage.sent
  sealed : s.owner.cached.terminalSealCommitted = true → s.storage.phase.over = true ∧
    ∃ done m, s.storage.settled = done ++ [m] ∧ m.isFinish = true ∧ s.owner.seenReleased = Spans.sum Message.credit done

theorem cleared_opened (limits : RecorderLimits) (now : ℕ) : Cleared (.opened limits now : System layout) where
  error h := by cases h
  confirmed _ h := by cases h
  unheld _ h := by cases h
  trailing _ := hitherto_nil
  sealed h := by cases h

theorem Cleared.of_owner {o : RecorderWorker layout} (h : Cleared s)
    (hcached : o.cached.state = s.owner.cached.state ∧ o.cached.firstError = s.owner.cached.firstError ∧
      o.cached.confirmedSubmission = s.owner.cached.confirmedSubmission ∧
      o.cached.terminalSealCommitted = s.owner.cached.terminalSealCommitted ∧ o.seenReleased = s.owner.seenReleased)
    (hunheld : o.cached.firstError = none → o.finishRequested = true →
      o.liveActivationReservation = none ∧ o.reservedFactGroups = [] ∧ o.referenceCompletion = none) :
    Cleared { s with owner := o } := by
  obtain ⟨hstate, herror, hconfirmed, hsealed, hreleased⟩ := hcached
  refine ⟨?_, ?_, hunheld, ?_, ?_⟩
  · dsimp only
    rw [hstate, herror]
    exact h.error
  · dsimp only
    rw [hconfirmed]
    exact h.confirmed
  · dsimp only
    rw [herror]
    exact h.trailing
  · dsimp only
    rw [hsealed, hreleased]
    exact h.sealed

/-- A failure is an error that stays. -/
theorem Cleared.fail {o : RecorderWorker layout} (h : Cleared s) (herror : o.cached.firstError ≠ none)
    (hconfirmed : o.cached.confirmedSubmission = s.owner.cached.confirmedSubmission)
    (hsealed : o.cached.terminalSealCommitted = s.owner.cached.terminalSealCommitted)
    (hreleased : o.seenReleased = s.owner.seenReleased) : Cleared { s with owner := o } := by
  refine ⟨fun _ => herror, ?_, fun hnone => absurd hnone herror, fun hnone => absurd hnone herror, ?_⟩
  · dsimp only
    rw [hconfirmed]
    exact h.confirmed
  · dsimp only
    rw [hsealed, hreleased]
    exact h.sealed

theorem Cleared.send {m : Message} {o : RecorderWorker layout} (h : Cleared s) (hlifecycle : Lifecycle s)
    (offer : s.owner.Offer m o) (granted : Honest s (.send m)) :
    Cleared { s with owner := o, storage := { s.storage with queue := s.storage.queue ++ [m] } } := by
  have hsent : ({ s.storage with queue := s.storage.queue ++ [m] } : Storage).sent = s.storage.sent ++ [m] :=
    (List.append_assoc _ _ _).symm
  have hcached : o.cached.firstError = s.owner.cached.firstError ∧
      o.cached.confirmedSubmission = s.owner.cached.confirmedSubmission ∧
      o.cached.terminalSealCommitted = s.owner.cached.terminalSealCommitted ∧ o.seenReleased = s.owner.seenReleased ∧
      (o.cached.state = .failed → s.owner.cached.state = .failed) := by
    cases offer with
    | start | stop => exact ⟨rfl, rfl, rfl, rfl, fun h => by cases h⟩
    | _ => exact ⟨rfl, rfl, rfl, rfl, id⟩
  obtain ⟨herror, hconfirmed, hsealed, hreleased, hstate⟩ := hcached
  refine ⟨fun hfailed => herror ▸ h.error (hstate hfailed), ?_, fun hnone hfinish => ?_, fun hnone => ?_, ?_⟩
  · dsimp only
    rw [hconfirmed]
    exact h.confirmed
  · have hnone : s.owner.cached.firstError = none := herror ▸ hnone
    cases offer with
    | finish summary time first last ended fresh free short next =>
      obtain ⟨hlive, hgroups⟩ | hfailed := granted.2 rfl
      · exact ⟨hlive, hgroups, free⟩
      · exact absurd hnone (h.error hfailed)
    | liveActivation => exact ⟨rfl, (h.unheld hnone hfinish).2⟩
    | referenceAccepted r accepted assigned last reserved =>
      rw [(h.unheld hnone hfinish).2.2] at reserved
      cases reserved
    | referenceCompletion => exact ⟨(h.unheld hnone hfinish).1, (h.unheld hnone hfinish).2.1, rfl⟩
    | _ => exact h.unheld hnone hfinish
  · have hnone : s.owner.cached.firstError = none := herror ▸ hnone
    dsimp only
    rw [hsent, hitherto_snoc]
    refine ⟨h.trailing hnone, ?_⟩
    rintro ⟨f, hf, hkind⟩
    have hfinish : s.owner.finishRequested = true := by
      by_contra hfresh
      rw [hlifecycle.unfinished (by simpa using hfresh) f hf] at hkind
      cases hkind
    exact (granted.1 hfinish).resolve_right fun hfailed => h.error hfailed hnone
  · dsimp only
    rw [hsealed, hreleased]
    exact h.sealed

theorem Cleared.adopt {receipt : Receipt} {charged referenceCredit : Credit} (h : Cleared s)
    (hreceipted : s.storage.Receipted) (hshown : s.storage.Shown receipt) :
    Cleared ({ s with owner := ({ s.owner with charged, referenceCredit } : RecorderWorker layout).adopt receipt } :
      System layout) := by
  generalize ho : ({ s.owner with charged, referenceCredit } : RecorderWorker layout) = o
  have hcached : o.cached = s.owner.cached := by rw [← ho]
  have hfields : o.finishRequested = s.owner.finishRequested ∧ o.liveActivationReservation = s.owner.liveActivationReservation ∧
      o.reservedFactGroups = s.owner.reservedFactGroups ∧ o.referenceCompletion = s.owner.referenceCompletion := by
    rw [← ho]
    exact ⟨rfl, rfl, rfl, rfl⟩
  obtain ⟨hfinish, hlive, hgroups, hreference⟩ := hfields
  obtain ⟨covered, hfront, hcovers⟩ := hreceipted.shown hshown
  have hnone : (o.adopt receipt).cached.firstError = none → s.owner.cached.firstError = none ∧ receipt.firstError = none := by
    intro hnone
    change (o.cached.firstError <|> receipt.firstError) = none at hnone
    rw [hcached] at hnone
    cases hold : s.owner.cached.firstError <;> rw [hold] at hnone
    · exact ⟨rfl, hnone⟩
    · cases hnone
  refine ⟨fun hfailed hclear => ?_, fun time htime => ?_, fun hclear hrequested => ?_, fun hclear => h.trailing (hnone hclear).1,
    fun hsealed => ?_⟩
  · by_cases hbefore : s.owner.cached.state = .failed
    · exact h.error hbefore (hnone hclear).1
    · have hreceipt : receipt.state = .failed := by
        obtain heq | ⟨heq, -⟩ | ⟨heq, -⟩ := stateAfter_cases receipt (hcached ▸ hbefore)
        · exact heq.symm.trans hfailed
        · cases heq.symm.trans hfailed
        · cases heq.symm.trans hfailed
      have hsome := hcovers.tells.error hreceipt
      rw [(hnone hclear).2] at hsome
      cases hsome
  · obtain ⟨m, hm, hsubmission⟩ := hcovers.tells.confirmed time htime
    exact ⟨m, hfront.subset hm, hsubmission⟩
  · change o.liveActivationReservation = none ∧ o.reservedFactGroups = [] ∧ o.referenceCompletion = none
    rw [hlive, hgroups, hreference]
    exact h.unheld (hnone hclear).1 (hfinish ▸ hrequested)
  · obtain ⟨hover, done, m, hsettled, hkind, hdone⟩ := hreceipted.sealed receipt hshown hsealed
    exact ⟨hover, done, m, hsettled, hkind, hdone.released⟩

theorem Micro.cleared (h : Micro Honest s s') (hs : Cleared s) (hlifecycle : Lifecycle s) : Cleared s' := by
  cases h with
  | worker move granted =>
    refine ⟨hs.error, fun time htime => ?_, hs.unheld, fun hnone => ?_, fun hsealed => ?_⟩
    · obtain ⟨m, hm, hsubmission⟩ := hs.confirmed time htime
      exact ⟨m, (s.storage.work_settled move).subset hm, hsubmission⟩
    · dsimp only
      rw [s.storage.work_sent move]
      exact hs.trailing hnone
    · obtain ⟨hover, done, m, hsettled, hkind, hreleased⟩ := hs.sealed hsealed
      obtain ⟨hover', hsame⟩ := s.storage.work_over move hover
      exact ⟨hover', done, m, hsame.trans hsettled, hkind, hreleased⟩
  | sent message o offer granted receiving room => exact hs.send hlifecycle offer granted
  | adopted receipt charged referenceCredit shown h => exact hs.adopt hlifecycle.receipted shown
  | failed message cause granted => exact hs.fail (by simp [RecorderWorker.failing]) rfl rfl rfl
  | gapFailed gap fresh live valid granted => exact hs.fail (by simp [RecorderWorker.failing]) rfl rfl rfl
  | reserved o h granted =>
    have hfresh : o.finishRequested = false := by cases h <;> exact granted
    refine hs.of_owner (by cases h <;> exact ⟨rfl, rfl, rfl, rfl, rfl⟩) fun _ hfinish => ?_
    rw [hfresh] at hfinish
    cases hfinish
  | changed o h =>
    refine hs.of_owner (by cases h <;> exact ⟨rfl, rfl, rfl, rfl, rfl⟩) fun hnone hfinish => ?_
    cases h with
    | liveCancelled reservation reserved => exact ⟨rfl, (hs.unheld hnone hfinish).2⟩
    | groupCancelled token charged reserved rest =>
      rw [(hs.unheld hnone hfinish).2.1] at reserved
      cases reserved
    | referenceReleased r left referenceCredit charged released reserved split reference rest =>
      rw [(hs.unheld hnone hfinish).2.2] at reserved
      cases reserved
    | captured r fact time reserved empty reference =>
      rw [(hs.unheld hnone hfinish).2.2] at reserved
      cases reserved
    | observed | configured | jobs => exact hs.unheld hnone hfinish
  | scheduled | refused | marked | slots | panicked => exact ⟨hs.error, hs.confirmed, hs.unheld, hs.trailing, hs.sealed⟩

/-! ### The polled status -/

/-- The status of a poll is the owner's own, with the credit that is charged. -/
theorem poll_status {status : RecordingStatus} (h : (poll : Step layout RecordingStatus).run s = (.ok status, s')) :
    ∃ s₁ : System layout, Path Quiet s s₁ ∧ Path Quiet s₁ s' ∧ status = s₁.owner.cached ∧
      status.outstanding = s₁.owner.charged := by
  unfold poll at h
  obtain ⟨_, s₁, hdrain, h⟩ := Procedure.bind_ok.1 h
  obtain ⟨receipt, schedule, hclone, hreceipt⟩ := run_cloneReceipt s₁
  rw [Procedure.run_bind_ok hclone] at h
  obtain ⟨status', s₂, hreconcile, h⟩ := Procedure.bind_ok.1 h
  obtain ⟨_, s₃, hperiodic, h⟩ := Procedure.bind_ok.1 h
  obtain ⟨rfl, rfl⟩ : status' = status ∧ s₃ = s' := by
    cases h
    exact ⟨rfl, rfl⟩
  have hshown : ∀ r, receipt = some r → ({ s₁.yielded with schedule } : System layout).storage.Shown r := by
    rintro r rfl
    exact hreceipt.elim nofun fun hsome => .inl (Option.some.inj hsome)
  obtain ⟨hpath, hstatus⟩ := reconcileReceipt_path receipt hshown
  rw [hreconcile] at hpath
  have hdrained := drainHistoryCancellations_path s
  rw [hdrain] at hdrained
  have hscheduled := (schedulePeriodic_path s₂).1
  rw [hperiodic] at hscheduled
  exact ⟨s₂, (hdrained.trans (locked_path s₁ schedule)).trans hpath, hscheduled, hstatus _ _ hreconcile⟩

theorem earlier_trans {a b c : Option ℕ} (hab : RecorderWorker.earlier b a = false) (hbc : RecorderWorker.earlier c b = false) :
    RecorderWorker.earlier c a = false := by
  cases a <;> cases b <;> cases c <;> simp_all [RecorderWorker.earlier]
  omega

theorem earlier_refl (a : Option ℕ) : RecorderWorker.earlier a a = false := by
  cases a <;> simp [RecorderWorker.earlier]

/-- Later statuses: persisted and confirmed numbers do not fall, a failure stays, and so does a lost coverage. -/
structure Follows (old new : RecordingStatus) : Prop where
  persisted : old.persistedThroughSequence ≤ new.persistedThroughSequence
  confirmed : RecorderWorker.earlier new.confirmedSubmission old.confirmedSubmission = false
  failed : old.state = .failed → new.state = .failed
  coverage : old.coverage ≠ .complete → new.coverage ≠ .complete

theorem Follows.refl (status : RecordingStatus) : Follows status status := ⟨le_rfl, earlier_refl _, id, id⟩

theorem Follows.trans {a b c : RecordingStatus} (hab : Follows a b) (hbc : Follows b c) : Follows a c :=
  ⟨hab.persisted.trans hbc.persisted, earlier_trans hab.confirmed hbc.confirmed, hbc.failed ∘ hab.failed,
    hbc.coverage ∘ hab.coverage⟩

theorem Micro.follows (h : Micro A s s') : Follows s.owner.cached s'.owner.cached := by
  have hfailing : ∀ (o : RecorderWorker layout) message, o.cached.coverage ≠ .complete →
      (o.failing message).cached.coverage ≠ .complete := fun o message hlost hcomplete =>
    hlost (failing_complete hcomplete).1
  cases h with
  | sent message o offer granted receiving room =>
    cases offer with
    | start label submittedAt boundary first last idle =>
      exact ⟨le_rfl, earlier_refl _, fun h => (nomatch idle.symm.trans h), id⟩
    | stop summary requestedAt first last recording =>
      exact ⟨le_rfl, earlier_refl _, fun h => (nomatch recording.symm.trans h), id⟩
    | _ => exact Follows.refl _
  | reserved o h granted => cases h <;> exact ⟨le_rfl, earlier_refl _, id, id⟩
  | changed o h => cases h <;> exact ⟨le_rfl, earlier_refl _, id, id⟩
  | adopted receipt charged referenceCredit shown h =>
    refine ⟨h.persisted, h.current, fun hfailed =>
      stateAfter_failed (o := { s.owner with charged, referenceCredit }) receipt hfailed, fun hlost hcomplete => ?_⟩
    change (if receipt.state = .failed ∧ s.owner.cached.coverage = .complete ∧ receipt.runNo.isSome = true then
      Coverage.unknownTail else s.owner.cached.coverage) = .complete at hcomplete
    split_ifs at hcomplete
    exact hlost hcomplete
  | failed message cause granted => exact ⟨le_rfl, earlier_refl _, fun _ => rfl, hfailing _ _⟩
  | gapFailed gap fresh live valid granted => exact ⟨le_rfl, earlier_refl _, fun _ => rfl, fun _ => hfailing _ _ nofun⟩
  | worker | scheduled | refused | marked | slots | panicked => exact Follows.refl _

theorem Path.follows (h : Path A s s') : Follows s.owner.cached s'.owner.cached := by
  induction h with
  | refl => exact .refl _
  | tail path step ih => exact ih.trans step.follows

/-- With the seal of the boot and no error, everything that was sent is committed and no credit is left. -/
theorem Cleared.clean (h : Cleared s) (hnumbered : Numbered s) (hlifecycle : Lifecycle s)
    (hconserved : s.owner.seenReleased + s.owner.charged = s.owner.held + Spans.sum Message.credit s.storage.sent)
    (hsealed : s.owner.cached.terminalSealCommitted = true) (hclear : s.owner.cached.firstError = none) :
    (∀ m ∈ s.storage.sent, m.records ≠ 0 → m.lastRecord ≤ s.storage.store.nextRecordSequence) ∧ s.owner.charged = 0 := by
  obtain ⟨-, done, m, hsettled, hkind, hreleased⟩ := h.sealed hsealed
  generalize hafter : s.storage.phase.inHand ++ s.storage.queue = after
  have hsent : s.storage.sent = s.storage.settled ++ after := by
    unfold Storage.sent
    rw [List.append_assoc, hafter]
  have hlast : ∀ m' ∈ after, m'.records = 0 := fun m' hm' => by
    obtain ⟨pre, post, rfl⟩ := List.append_of_mem hm'
    refine h.trailing hclear (s.storage.settled ++ pre) m' post (by rw [hsent]; simp) ⟨m, ?_, hkind⟩
    rw [hsettled]
    simp
  have hfinish : s.owner.finishRequested = true := by
    by_contra hfresh
    rw [hlifecycle.unfinished (by simpa using hfresh) m (by rw [hsent, hsettled]; simp)] at hkind
    cases hkind
  refine ⟨fun m' hm' hrecords => ?_, ?_⟩
  · rw [hsent] at hm'
    have hm' : m' ∈ s.storage.settled := (List.mem_append.1 hm').resolve_right fun hafter => hrecords (hlast m' hafter)
    have hbound := (hnumbered.settled.bounds hm' hrecords).2
    rw [hnumbered.stored]
    rwa [Nat.zero_add] at hbound
  · obtain ⟨hlive, hgroups, hreference⟩ := h.unheld hclear hfinish
    have hheld : s.owner.held = 0 := by
      simp [RecorderWorker.held, RecorderWorker.liveCredit, RecorderWorker.groupCredit, RecorderWorker.unusedReference, hlive,
        hgroups, hreference]
    have hnothing : Spans.sum Message.credit after = 0 := List.sum_eq_zero fun credit hcredit => by
      obtain ⟨m', hm', rfl⟩ := List.mem_map.1 hcredit
      exact Message.credit_eq_zero (hnumbered.solid m' (by rw [hsent]; exact List.mem_append_right _ hm')) (hlast m' hm')
    have hcredit : m.credit = 0 := by cases m <;> first | rfl | cases hkind
    rw [hsent, hsettled, Spans.sum_append, Spans.sum_append, hnothing, Spans.sum_cons, hcredit, hheld, hreleased] at hconserved
    refine add_left_cancel (a := Spans.sum Message.credit done) ?_
    rw [hconserved]
    simp

/-- The worker serves the finish and goes. -/
def retired : List WorkerMove :=
  [.receive, .transact none, .publish none, .close none, .leave, .retire, .finish]

theorem worker_honest (moves : List WorkerMove) (s : System layout) :
    Path Honest s { s with storage := after Storage.work s.storage moves } := by
  induction moves using List.reverseRecOn with
  | nil => exact .refl
  | append_singleton moves move ih =>
    rw [after_append]
    exact ih.tail (.worker move trivial)

def shutdownEvidence : Summary := { len := 2, isObject := true, pendingOperations := none }

def finishSent : System heaterLayout :=
  let opened : System heaterLayout := .opened .default 0
  { opened with
    owner := { opened.owner with reservedThrough := 2, finishRequested := true }
    storage := { opened.storage with queue := opened.storage.queue ++ [.finish shutdownEvidence 9 1] } }

def finishServed : System heaterLayout := { finishSent with storage := after Storage.work finishSent.storage retired }

def finishShown : System heaterLayout :=
  { finishServed with owner := { finishServed.owner with charged := 0, referenceCredit := 0 }.adopt finishServed.storage.receipt }

theorem finish_shown : Path Honest (.opened .default 0) finishShown := by
  have hsent : Path Honest (.opened .default 0) finishSent :=
    .single (.sent (.finish shutdownEvidence 9 1) _ (.finish shutdownEvidence 9 1 2 (.inl rfl) rfl rfl (by decide) rfl)
      ⟨fun h => (nomatch h), fun _ => .inl ⟨rfl, rfl⟩⟩ rfl (by decide))
  refine (hsent.trans (worker_honest retired finishSent)).tail (.adopted finishServed.storage.receipt 0 0 (.inl rfl) ?_)
  exact { persisted := by decide, reserved := by decide, submitted := fun _ h => (nomatch h), current := rfl
          released := ⟨0, 0, rfl, rfl, rfl, ⟨0, 0, rfl, rfl, rfl⟩, ⟨0, rfl, rfl⟩, rfl⟩ }

def finishCooling : Event := .call unhurried (.requestFinish shutdownEvidence 9)

/-- The terminal of a stop is taken after the finish was requested. -/
def belatedRun : List Event := finishCooling :: .call unhurried (.tryAdmitOperation stopCompleted) :: retired.map .worker ++ [.call unhurried .poll]

def belatedSystem : System heaterLayout := after System.step (.opened .default 0) belatedRun

end LabRuntime.Recorder
