import LabRuntime.Recorder.Slots

/-! Owner and worker agree on the lifecycle: what the worker takes from the channel meets the state of
its store, as long as a gap is reported only while a run is open. -/

namespace LabRuntime.Recorder

open History

variable {layout : FactLayout} {A : System layout → Act → Prop} {s s' : System layout}

/-- The lifecycle precondition of the store method that a message reaches. -/
def Message.Meets (store : SqliteStore) : Message → Prop
  | .start .. => store.runNo = none
  | .facts _ => store.runNo ≠ none
  | .referenceAccepted .. => store.runNo ≠ none
  | .referenceCompletion .. => store.runNo ≠ none
  | Message.annotation .. => store.runNo ≠ none
  | .probe _ => store.runNo ≠ none
  | .stop .. => store.runNo ≠ none
  | .gapSeal .. => store.runNo ≠ none
  | .operation record _ _ => store.runNo ≠ none ∨ record.stopTerminal = true
  | .finish .. => store.runNo = none ∧ store.bootSealed = false
  | _ => True

/-- A gap is sealed where a run was started and not stopped, and the boot is finished where none is open. -/
def Message.Lawful (pre : List Message) : Message → Prop
  | .gapSeal .. => ¬ Even (barriers pre)
  | .finish .. => Even (barriers pre) ∨ ¬ Gapless pre
  | _ => True

/-- No gap is reported while no run is open, and a finish is sent after a stop or a persisted failure. -/
def Orderly (s : System layout) : Act → Prop
  | .gap => s.owner.cached.state ≠ .idle ∧ s.owner.cached.state ≠ .stopping
  | .send (.finish ..) => s.owner.cached.state = .idle ∨ s.owner.cached.failurePersisted = true
  | _ => True

/-! ### Rows of runs -/

namespace SqliteStore

variable {store store' : SqliteStore}

/-- Rows are those of earlier runs, and a sealed one is complete; the open run has neither been sealed nor lost. -/
structure Shelved (store : SqliteStore) : Prop where
  earlier : ∀ run ∈ store.runs, run.runNo < store.nextRunNo
  current : ∀ run ∈ store.runs, store.runNo = some run.runNo → run.state = .recording ∧ run.coverage = .complete
  complete : ∀ run ∈ store.runs, run.state = .sealed → run.coverage = .complete

theorem shelved_opened : SqliteStore.opened.Shelved := ⟨nofun, nofun, nofun⟩

/-- Sealed rows stay. -/
def Keeps (store store' : SqliteStore) : Prop := ∀ run ∈ store.runs, run.state = .sealed → run ∈ store'.runs

theorem Steady.shelved (h : store.Steady store') (hs : store.Shelved) : store'.Shelved ∧ store.Keeps store' := by
  refine ⟨⟨?_, ?_, ?_⟩, fun run hrun _ => h.runs ▸ hrun⟩
  · rw [h.runs, h.nextRunNo]
    exact hs.earlier
  · rw [h.runs, h.runNo]
    exact hs.current
  · rw [h.runs]
    exact hs.complete

theorem Opens.shelved (h : store.Opens store') (hs : store.Shelved) : store'.Shelved ∧ store.Keeps store' := by
  obtain ⟨opened, hruns, hnumber, hstate, hcoverage⟩ := h.runs
  have hmem : ∀ run ∈ store'.runs, run ∈ store.runs ∨ run = opened := fun run hrun => by
    rw [hruns] at hrun
    simpa using hrun
  refine ⟨⟨fun run hrun => ?_, fun run hrun hopen => ?_, fun run hrun hsealed => ?_⟩, fun run hrun _ => ?_⟩
  · rw [h.nextRunNo]
    obtain hold | rfl := hmem run hrun
    · exact (hs.earlier run hold).trans (Nat.lt_succ_self _)
    · rw [hnumber]
      exact Nat.lt_succ_self _
  · obtain hold | rfl := hmem run hrun
    · -- the number of the new run is above those of all rows
      rw [h.runNo, Option.some.injEq] at hopen
      exact absurd (hs.earlier run hold) (by omega)
    · exact ⟨hstate, hcoverage⟩
  · obtain hold | rfl := hmem run hrun
    · exact hs.complete run hold hsealed
    · exact hcoverage
  · rw [hruns]
    exact List.mem_append_left _ hrun

theorem Closes.shelved {change : RunRow → RunRow} (h : Closes change store store') (hs : store.Shelved)
    (hnumber : ∀ run, (change run).runNo = run.runNo)
    (hsealed : ∀ run, (change run).state = .sealed → (change run).coverage = run.coverage) :
    store'.Shelved ∧ store.Keeps store' := by
  obtain ⟨runNo, hopen, hruns⟩ := h.runs
  have hmem : ∀ run' ∈ store'.runs, ∃ run ∈ store.runs, run' = if run.runNo = runNo then change run else run :=
    fun run' hrun' => by
      rw [hruns] at hrun'
      obtain ⟨run, hrun, heq⟩ := List.mem_map.1 hrun'
      exact ⟨run, hrun, heq.symm⟩
  refine ⟨⟨fun run' hrun' => ?_, fun _ _ hnone => ?_, fun run' hrun' hstate => ?_⟩, fun run hrun hstate => ?_⟩
  · obtain ⟨run, hrun, rfl⟩ := hmem run' hrun'
    rw [h.nextRunNo]
    split_ifs with heq
    · rw [hnumber]
      exact hs.earlier run hrun
    · exact hs.earlier run hrun
  · rw [h.runNo] at hnone
    cases hnone
  · obtain ⟨run, hrun, rfl⟩ := hmem run' hrun'
    split_ifs at hstate ⊢ with heq
    · rw [hsealed run hstate]
      exact (hs.current run hrun (heq ▸ hopen)).2
    · exact hs.complete run hrun hstate
  · rw [hruns]
    refine List.mem_map.2 ⟨run, hrun, if_neg fun heq => ?_⟩
    rw [(hs.current run hrun (heq ▸ hopen)).1] at hstate
    cases hstate

theorem Seals.shelved (h : store.Seals store') (hs : store.Shelved) : store'.Shelved ∧ store.Keeps store' := by
  refine ⟨⟨?_, ?_, ?_⟩, fun run hrun _ => h.runs ▸ hrun⟩
  · rw [h.runs, h.nextRunNo]
    exact hs.earlier
  · rw [h.runs, h.runNo]
    exact hs.current
  · rw [h.runs]
    exact hs.complete

end SqliteStore

/-- Transactions keep the rows in order, and those of sealed runs as they are. -/
theorem Work.execute_shelved {store store' : SqliteStore} {work : Work} (h : work.execute store = .ok store')
    (hs : store.Shelved) : store'.Shelved ∧ store.Keeps store' := by
  cases work with
  | batch groups => exact (executeBatch_steady h).shelved hs
  | one message =>
    have hturned := Work.execute_turned h
    cases message with
    | start => exact SqliteStore.Opens.shelved hturned hs
    | stop => exact SqliteStore.Closes.shelved hturned hs (fun _ => rfl) fun _ _ => rfl
    | gapSeal => exact SqliteStore.Closes.shelved hturned hs (fun _ => rfl) nofun
    | finish => exact SqliteStore.Seals.shelved hturned hs
    | _ => exact SqliteStore.Steady.shelved hturned hs

/-- The boot is sealed by a finish. -/
theorem Work.execute_sealed {store store' : SqliteStore} {work : Work} (h : work.execute store = .ok store')
    (hsealed : store'.bootSealed = true) : store.bootSealed = true ∨ ∃ m ∈ work.messages, m.isFinish = true := by
  cases work with
  | batch groups => exact .inl ((executeBatch_steady h).bootSealed ▸ hsealed)
  | one message =>
    have hturned := Work.execute_turned h
    cases message with
    | finish => exact .inr ⟨_, List.mem_singleton_self _, rfl⟩
    | start => exact .inl ((SqliteStore.Opens.bootSealed hturned) ▸ hsealed)
    | stop | gapSeal => exact .inl ((SqliteStore.Closes.bootSealed hturned) ▸ hsealed)
    | _ => exact .inl ((SqliteStore.Steady.bootSealed hturned) ▸ hsealed)

/-! ### The invariant -/

structure Agreed (s : System layout) : Prop extends Lifecycle s where
  lawful : Hitherto Message.Lawful s.storage.sent
  noted : s.storage.phase.receiving = true → s.owner.cached.coverage = .gap → ¬ Even (barriers s.storage.sent)
  covered : s.owner.cached.state ≠ .failed → s.owner.cached.coverage = .complete
  persisted : s.owner.cached.failurePersisted = true → ¬ Gapless s.storage.sent
  shelved : s.storage.store.Shelved
  bootSealed : s.storage.store.bootSealed = true → ∃ m ∈ s.storage.settled, m.isFinish = true

theorem agreed_opened (limits : RecorderLimits) (now : ℕ) : Agreed (.opened limits now : System layout) where
  toLifecycle := lifecycle_opened limits now
  lawful := hitherto_nil
  noted _ h := by cases h
  covered _ := rfl
  persisted h := by cases h
  shelved := SqliteStore.shelved_opened
  bootSealed h := by cases h

theorem Agreed.of_same (h : Agreed s) (hlifecycle : Lifecycle s')
    (hcoverage : s'.owner.cached.coverage = s.owner.cached.coverage) (hstate : s'.owner.cached.state = s.owner.cached.state)
    (hpersisted : s'.owner.cached.failurePersisted = s.owner.cached.failurePersisted)
    (hsent : s'.storage.sent = s.storage.sent) (hsettled : s'.storage.settled = s.storage.settled)
    (hstore : s'.storage.store = s.storage.store) (hphase : s'.storage.phase = s.storage.phase) : Agreed s' where
  toLifecycle := hlifecycle
  lawful := hsent ▸ h.lawful
  noted := by rw [hphase, hcoverage, hsent]; exact h.noted
  covered := by rw [hstate, hcoverage]; exact h.covered
  persisted := by rw [hpersisted, hsent]; exact h.persisted
  shelved := hstore ▸ h.shelved
  bootSealed := by rw [hstore, hsettled]; exact h.bootSealed

theorem Agreed.work (h : Agreed s) (move : WorkerMove) (hlifecycle : Lifecycle { s with storage := s.storage.work move }) :
    Agreed { s with storage := s.storage.work move } ∧ s.storage.store.Keeps (s.storage.work move).store := by
  have hsent := s.storage.work_sent move
  suffices hstore : ((s.storage.work move).store.Shelved ∧ s.storage.store.Keeps (s.storage.work move).store) ∧
      ((s.storage.work move).store.bootSealed = true → ∃ m ∈ (s.storage.work move).settled, m.isFinish = true) from
    ⟨⟨hlifecycle, hsent ▸ h.lawful, fun hreceiving => hsent ▸ h.noted (s.storage.work_receiving move hreceiving), h.covered,
      hsent ▸ h.persisted, hstore.1.1, hstore.2⟩, hstore.1.2⟩
  obtain ⟨work, deferred, -, hexecute, hsettled⟩ | ⟨hstore, jobs, hsettled, -⟩ := s.storage.work_commits move
  · refine ⟨Work.execute_shelved hexecute h.shelved, fun hsealed => ?_⟩
    rw [hsettled]
    obtain hold | ⟨m, hm, hfinish⟩ := Work.execute_sealed hexecute hsealed
    · obtain ⟨m, hm, hfinish⟩ := h.bootSealed hold
      exact ⟨m, List.mem_append_left _ hm, hfinish⟩
    · exact ⟨m, List.mem_append_right _ hm, hfinish⟩
  · rw [hstore, hsettled]
    refine ⟨⟨h.shelved, fun run hrun _ => hrun⟩, fun hsealed => ?_⟩
    obtain ⟨m, hm, hfinish⟩ := h.bootSealed hsealed
    exact ⟨m, List.mem_append_left _ hm, hfinish⟩

theorem Offer.cached {m : Message} {o o' : RecorderWorker layout} (h : o.Offer m o') :
    o'.cached.coverage = o.cached.coverage ∧ o'.cached.failurePersisted = o.cached.failurePersisted ∧
      (o.cached.state = .failed → o'.cached.state = .failed) := by
  cases h with
  | start label submittedAt boundary first last idle named valid next => exact ⟨rfl, rfl, fun h => by rw [idle] at h; cases h⟩
  | stop summary requestedAt first last recording free short next =>
    exact ⟨rfl, rfl, fun h => by rw [recording] at h; cases h⟩
  | _ => exact ⟨rfl, rfl, id⟩

/-- A gap that was noted is sealed while its run is open. -/
theorem Agreed.lawful_offer {m : Message} {o : RecorderWorker layout} (h : Agreed s)
    (hreceiving : s.storage.phase.receiving = true) (offer : s.owner.Offer m o) (granted : Orderly s (.send m)) :
    m.Lawful s.storage.sent := by
  cases offer with
  | gapSeal gap first last fresh failed noted valid next => exact h.noted hreceiving noted
  | finish summary time first last ended fresh free short next =>
    obtain hidle | hpersisted : s.owner.cached.state = .idle ∨ s.owner.cached.failurePersisted = true := granted
    · exact .inl (h.stopped hreceiving hidle).1
    · exact .inr (h.persisted hpersisted)
  | _ => trivial

theorem Agreed.send {m : Message} {o : RecorderWorker layout} (h : Agreed s) (hreceiving : s.storage.phase.receiving = true)
    (offer : s.owner.Offer m o) (granted : Orderly s (.send m)) :
    Agreed { s with owner := o, storage := { s.storage with queue := s.storage.queue ++ [m] } } := by
  have hsent : ({ s.storage with queue := s.storage.queue ++ [m] } : Storage).sent = s.storage.sent ++ [m] :=
    (List.append_assoc _ _ _).symm
  obtain ⟨hcoverage, hpersisted, hfailed⟩ := Offer.cached offer
  refine ⟨h.toLifecycle.send hreceiving offer, ?_, fun _ hgap => ?_, fun hlive => ?_, fun hp hgapless => ?_, h.shelved,
    h.bootSealed⟩
  · dsimp only
    rw [hsent, hitherto_snoc]
    exact ⟨h.lawful, h.lawful_offer hreceiving offer granted⟩
  · -- after a gap the owner has failed, and sends no barrier
    have hgap : s.owner.cached.coverage = .gap := hcoverage ▸ hgap
    have hstate : s.owner.cached.state = .failed := by
      by_contra hlive
      rw [h.covered hlive] at hgap
      cases hgap
    have hbarrier : m.barrier = false := by
      cases offer with
      | start label submittedAt boundary first last idle => rw [idle] at hstate; cases hstate
      | stop summary requestedAt first last recording => rw [recording] at hstate; cases hstate
      | _ => rfl
    dsimp only
    rw [hsent, barriers_append, barriers_cons, hbarrier]
    exact h.noted hreceiving hgap
  · exact hcoverage.trans (h.covered fun hstate => hlive (hfailed hstate))
  · dsimp only at hgapless
    rw [hsent, gapless_append] at hgapless
    exact h.persisted (hpersisted ▸ hp) hgapless.1

theorem adopt_coverage {o : RecorderWorker layout} (receipt : Receipt) :
    ((o.adopt receipt).cached.coverage = .gap → o.cached.coverage = .gap) ∧
      ((o.adopt receipt).cached.state ≠ .failed → o.cached.state ≠ .failed ∧
        (o.adopt receipt).cached.coverage = o.cached.coverage) := by
  unfold RecorderWorker.adopt RecorderWorker.stateAfter
  dsimp only
  constructor
  · split_ifs with hlost
    · nofun
    · exact id
  · intro hlive
    have hstate : o.cached.state ≠ .failed := fun hfailed => by
      rw [if_pos (.inr (.inr hfailed))] at hlive
      exact hlive hfailed
    refine ⟨hstate, if_neg fun hlost => ?_⟩
    rw [if_neg (by simp [hlost.1, hstate])] at hlive
    exact hlive hlost.1

theorem Agreed.adopt {receipt : Receipt} {charged referenceCredit : Credit} (h : Agreed s) (hshown : s.storage.Shown receipt)
    (hlifecycle : Lifecycle ({ s with
      owner := ({ s.owner with charged, referenceCredit } : RecorderWorker layout).adopt receipt } : System layout)) :
    Agreed ({ s with owner := ({ s.owner with charged, referenceCredit } : RecorderWorker layout).adopt receipt } :
      System layout) := by
  obtain ⟨hgap, hlive⟩ := adopt_coverage (o := ({ s.owner with charged, referenceCredit } : RecorderWorker layout)) receipt
  refine ⟨hlifecycle, h.lawful, fun hreceiving hnoted => h.noted hreceiving (hgap hnoted), fun hstate => ?_,
    fun hpersisted hgapless => ?_, h.shelved, h.bootSealed⟩
  · obtain ⟨hbefore, hsame⟩ := hlive hstate
    exact hsame.trans (h.covered hbefore)
  · obtain ⟨covered, hfront, hcovers⟩ := h.receipted.shown hshown
    exact hcovers.tells.gap hpersisted fun m hm => hgapless m ((hfront.trans s.storage.settled_sent).subset hm)

/-- A gap is noted only where a run is open. -/
theorem Agreed.gap {gap : RecorderGap} (h : Agreed s) (granted : Orderly s .gap) (hlive : s.owner.cached.state ≠ .failed)
    (hlifecycle : Lifecycle ({ s with owner := (s.owner.noteGap gap).failing gap.reason } : System layout)) :
    Agreed ({ s with owner := (s.owner.noteGap gap).failing gap.reason } : System layout) := by
  refine ⟨hlifecycle, h.lawful, fun hreceiving _ => ?_, fun hstate => absurd rfl hstate, h.persisted, h.shelved, h.bootSealed⟩
  obtain ⟨hidle, hstopping⟩ : s.owner.cached.state ≠ .idle ∧ s.owner.cached.state ≠ .stopping := granted
  refine (h.toLifecycle.running hreceiving ?_).1
  obtain ⟨done, hdone⟩ := h.course
  have hstands := hdone.stands (.inl hreceiving)
  cases hstate : s.owner.cached.state with
  | starting => exact .inl rfl
  | recording => exact .inr rfl
  | idle => exact absurd hstate hidle
  | stopping => exact absurd hstate hstopping
  | failed => exact absurd hstate hlive
  | closed => rw [hstate] at hstands; exact hstands.elim

theorem failing_coverage {o : RecorderWorker layout} {message : StorageError}
    (h : (o.failing message).cached.coverage = .gap) : o.cached.coverage = .gap := by
  unfold RecorderWorker.failing at h
  dsimp only at h
  split_ifs at h
  exact h

theorem Micro.agreed (h : Micro Orderly s s') (hs : Agreed s) : Agreed s' ∧ s.storage.store.Keeps s'.storage.store := by
  have hlifecycle := h.lifecycle hs.toLifecycle
  have hsame : s.storage.store.Keeps s.storage.store := fun run hrun _ => hrun
  cases h with
  | worker move granted => exact hs.work move hlifecycle
  | sent message o offer granted receiving room => exact ⟨hs.send receiving offer granted, hsame⟩
  | reserved o h granted =>
    exact ⟨by cases h <;> exact hs.of_same hlifecycle rfl rfl rfl rfl rfl rfl rfl, hsame⟩
  | changed o h => exact ⟨by cases h <;> exact hs.of_same hlifecycle rfl rfl rfl rfl rfl rfl rfl, hsame⟩
  | adopted receipt charged referenceCredit shown h => exact ⟨hs.adopt shown hlifecycle, hsame⟩
  | failed message cause granted =>
    exact ⟨⟨hlifecycle, hs.lawful, fun hreceiving hgap => hs.noted hreceiving (failing_coverage hgap),
      fun hstate => absurd rfl hstate, hs.persisted, hs.shelved, hs.bootSealed⟩, hsame⟩
  | gapFailed gap fresh live valid granted => exact ⟨hs.gap granted live hlifecycle, hsame⟩
  | scheduled | refused | marked | slots | panicked =>
    exact ⟨hs.of_same hlifecycle rfl rfl rfl rfl rfl rfl rfl, hsame⟩

theorem Path.agreed (h : Path Orderly s s') (hs : Agreed s) : Agreed s' ∧ s.storage.store.Keeps s'.storage.store := by
  induction h with
  | refl => exact ⟨hs, fun run hrun _ => hrun⟩
  | tail path step ih =>
    obtain ⟨hbefore, hkept⟩ := ih
    obtain ⟨hafter, hkeeps⟩ := step.agreed hbefore
    exact ⟨hafter, fun run hrun hsealed => hkeeps run (hkept run hrun hsealed) hsealed⟩

/-! ### Agreement -/

/-- What the worker is about to execute meets the lifecycle of its store. -/
theorem Agreed.meets (h : Agreed s) {work : Work} {deferred : Option Message}
    (hphase : s.storage.phase = .holding work deferred) : ∀ m ∈ work.messages, m.Meets s.storage.store := by
  have hsent : s.storage.sent = s.storage.settled ++ (work.messages ++ deferred.toList ++ s.storage.queue) := by
    unfold Storage.sent
    rw [hphase, List.append_assoc]
    rfl
  have hrunning : Running s.storage.settled → s.storage.store.runNo ≠ none := fun hrun => by
    rw [← Option.isSome_iff_ne_none]
    exact h.agrees.2 hrun
  have hstopped : ¬ Running s.storage.settled → s.storage.store.runNo = none := fun hstopped => by
    rw [← Option.not_isSome_iff_eq_none]
    exact fun hsome => hstopped (h.agrees.1 hsome)
  cases work with
  | batch groups =>
    intro m hm
    obtain ⟨group, hgroup, rfl⟩ := List.mem_map.1 hm
    obtain ⟨first, rest, rfl⟩ := List.exists_cons_of_ne_nil (List.ne_nil_of_mem hgroup)
    exact hrunning (h.placed _ (.facts first) _ hsent)
  | one message =>
    intro m hm
    obtain rfl := List.mem_singleton.1 hm
    have hplaced : m.Placed s.storage.settled := h.placed _ m _ hsent
    have hlawful : m.Lawful s.storage.settled := h.lawful _ m _ hsent
    cases m with
    | start => exact hstopped fun hrun => hrun.1 hplaced.1
    | gapSeal => exact hrunning ⟨hlawful, hplaced⟩
    | operation => exact hplaced.imp_left hrunning
    | finish =>
      refine ⟨hstopped fun hrun => hlawful.elim hrun.1 fun hgap => hgap hrun.2, ?_⟩
      by_contra hsealed
      obtain ⟨m, hm, hfinish⟩ := h.bootSealed (by simpa using hsealed)
      rw [hplaced m hm] at hfinish
      cases hfinish
    | facts | referenceAccepted | referenceCompletion | annotation | probe | stop => exact hrunning hplaced
    | _ => trivial

/-- Starts, stops, polls and the worker's own moves. -/
def plain : Event → Bool
  | .worker _ => true
  | .call _ (.requestStart ..) => true
  | .call _ (.requestStop ..) => true
  | .call _ .poll => true
  | _ => false

theorem System.grants_orderly {event : Event} (h : plain event = true) : s.Grants Orderly event := by
  cases event with
  | worker move => trivial
  | call schedule call =>
    intro s' act hpath hact
    obtain hquiet | hact := hact
    · cases act with
      | send message => cases message <;> trivial
      | gap => cases hquiet
      | _ => trivial
    · cases call with
      | requestStart label submittedAt boundary =>
        obtain ⟨policy, first, rfl⟩ := hact
        trivial
      | requestStop summary requestedAt =>
        obtain ⟨first, rfl⟩ := hact
        trivial
      | poll => exact hact.elim
      | _ => cases h

theorem orderly_after (limits : RecorderLimits) (now : ℕ) {events : List Event} (h : ∀ event ∈ events, plain event = true) :
    Path Orderly (.opened limits now : System layout) (after System.step (.opened limits now) events) := by
  induction events using List.reverseRecOn with
  | nil => exact .refl
  | append_singleton events event ih =>
    rw [after_append]
    refine (ih fun e he => h e (List.mem_append_left _ he)).trans (System.step_path event (System.grants_orderly ?_))
    exact h event (List.mem_append_right _ (List.mem_singleton_self _))

def stopCooling : Event := .call unhurried (.requestStop { len := 2, isObject := true, pendingOperations := some 0 } 1)

def stoppedRun : List Event := startCooling :: served ++ stopCooling :: served ++ [.call unhurried .poll]

def stoppedSystem : System heaterLayout := after System.step (.opened .default 0) stoppedRun

/-- The error with which the worker is about to stop. -/
def Storage.rejection (s : Storage) : Option StorageError :=
  match s.phase with
  | .holding work _ => match work.execute s.store with
    | .error error => some error
    | .ok _ => none
  | _ => none

def stopCompleted : OperationRecord :=
  { scope := ⟨"web", 0⟩, requestSeq := 1, command := "recording_stop", phase := "completed", data := ⟨"{}", 0⟩
    outcomeBasis := "domain_result", time := 2 }

/-- More terminals of stops than there is credit for, while the worker is stalled after the run was sealed. -/
def lateRun : List Event :=
  stoppedRun ++ List.replicate 33 (.call unhurried (.tryAdmitOperation stopCompleted)) ++
    (List.replicate 32 served).flatten ++ [.worker .receive]

def lateSystem : System heaterLayout := after System.step (.opened .default 0) lateRun

end LabRuntime.Recorder
