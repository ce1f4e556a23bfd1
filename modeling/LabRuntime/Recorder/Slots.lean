import LabRuntime.Recorder.Credit

/-! Slots of the channel. Its size is a sum of budgets: the groups that can be charged, eight history
jobs and six control messages. The owner keeps to all of them but two, which callers can exceed. -/

namespace LabRuntime.Recorder

open History

variable {layout : FactLayout} {A : System layout → Act → Prop} {s s' : System layout}

namespace Message

/-- The activation of the boot, and probes: control messages of which several may be queued. -/
def marker : Message → Bool
  | .activation _ none => true
  | .probe _ => true
  | _ => false

def isClock : Message → Bool
  | .clockAnchor _ => true
  | _ => false

end Message

/-- Every message counts against one of the budgets. -/
theorem Message.counted (m : Message) : m.credit.groups + (if Storage.isJob m then 1 else 0) + (if m.marker then 1 else 0) +
    (if m.barrier then 1 else 0) + (if m.isClock then 1 else 0) + (if m.isGapSeal then 1 else 0) +
    (if m.isFinish then 1 else 0) = 1 := by
  cases m with
  | activation root lifecycle => cases lifecycle <;> rfl
  | _ => rfl

theorem length_counted (ms : List Message) : ms.length = (Spans.sum Message.credit ms).groups + ms.countP Storage.isJob +
    ms.countP Message.marker + barriers ms + ms.countP Message.isClock + ms.countP Message.isGapSeal +
    ms.countP Message.isFinish := by
  induction ms with
  | nil => rfl
  | cons m ms ih =>
    have hm := m.counted
    simp only [List.length_cons, Spans.sum_cons, Credit.add_groups, List.countP_cons, barriers_cons]
    omega

/-! ### Messages of which one is sent -/

theorem countP_of_first {α : Type*} {p : α → Bool} {as : List α} (h : Hitherto (fun pre a => p a = true → ∀ b ∈ pre, p b = false) as) :
    as.countP p ≤ 1 := by
  induction as using List.reverseRecOn with
  | nil => exact Nat.zero_le _
  | append_singleton as a ih =>
    obtain ⟨has, ha⟩ := hitherto_snoc.1 h
    rw [List.countP_append, List.countP_singleton]
    split_ifs with hp
    · rw [List.countP_eq_zero.2 fun b hb => by simp [ha hp b hb]]
    · exact ih has

theorem Lifecycle.gapSeal_once (h : Lifecycle s) : s.storage.sent.countP Message.isGapSeal ≤ 1 :=
  countP_of_first fun pre m post heq hm => by
    have hplaced := h.placed pre m post heq
    cases m <;> first | exact hplaced | cases hm

theorem Lifecycle.finish_once (h : Lifecycle s) : s.storage.sent.countP Message.isFinish ≤ 1 :=
  countP_of_first fun pre m post heq hm => by
    have hplaced := h.placed pre m post heq
    cases m <;> first | exact hplaced | cases hm

/-- At most one start or stop is unconfirmed. -/
theorem Lifecycle.barrier_once (h : Lifecycle s) (hreceiving : s.storage.phase.receiving = true) :
    barriers (s.storage.phase.inHand ++ s.storage.queue) ≤ 1 := by
  obtain ⟨done, hdone⟩ := h.course
  have hstands := hdone.stands (.inl hreceiving)
  have hle : barriers done ≤ barriers s.storage.settled := hdone.settled.sublist.countP_le
  have hsent : barriers s.storage.sent =
      barriers s.storage.settled + barriers (s.storage.phase.inHand ++ s.storage.queue) := by
    rw [← barriers_append]
    unfold Storage.sent
    rw [List.append_assoc]
  have hsome : barriers s.storage.sent ≤ barriers done + 1 := hstands.fail
  omega

/-! ### The invariant -/

theorem Storage.work_queue (s : Storage) (move : WorkerMove) : (s.work move).queue <:+ s.queue := by
  refine Storage.work_keeps (fun s' => s'.queue <:+ s.queue) move List.suffix_rfl (fun s' hworked => ?_) fun s' _ hbroken => ?_
  · cases hworked with
    | queuedJob message queue phase head | queuedWork message queue phase head | gathered _ message queue phase head
    | deferred _ message queue phase head =>
      rw [head]
      exact List.suffix_cons _ _
    | _ => exact List.suffix_rfl
  · cases hbroken <;> exact List.suffix_rfl

structure Budgeted (s : System layout) : Prop extends Credited s where
  jobs : s.storage.queue.countP Storage.isJob ≤ maxHistoryJobs
  markers : s.storage.queue.countP Message.marker ≤ 2
  clock : ∀ assigned, .clockAnchor assigned ∈ s.storage.queue → s.owner.periodicPending = some assigned
  clocks : s.storage.queue.countP Message.isClock ≤ 1
  valid : s.owner.limits.valid = true
  bounded : s.storage.queue.length ≤ fifoCapacity
  refused : ∀ m ∈ s.storage.refused, Storage.isJob m = true ∨ m.marker = true

/-- The budgets of history jobs and of markers have room for a message. -/
def Spares (s : System layout) (m : Message) : Prop :=
  (Storage.isJob m = true → s.storage.queue.countP Storage.isJob < maxHistoryJobs) ∧
    (m.marker = true → s.storage.queue.countP Message.marker < 2)

theorem spares_of_other {m : Message} (hjob : Storage.isJob m = false) (hmarker : m.marker = false) : Spares s m :=
  ⟨by simp [hjob], by simp [hmarker]⟩

/-- Every message that is sent finds room in its budget. -/
def Thrifty (s : System layout) : Act → Prop
  | .send m => Spares s m
  | _ => True

theorem budgeted_opened {limits : RecorderLimits} (now : ℕ) (h : limits.valid = true) :
    Budgeted (.opened limits now : System layout) where
  toCredited := credited_opened limits now
  jobs := Nat.zero_le _
  markers := Nat.zero_le _
  clock _ hm := by cases hm
  clocks := Nat.zero_le _
  valid := h
  bounded := Nat.zero_le _
  refused _ hm := by cases hm

/-- The queue holds no more than what its budgets add up to. -/
theorem Credited.length_queue (h : Credited s) (hreceiving : s.storage.phase.receiving = true)
    (hjobs : s.storage.queue.countP Storage.isJob ≤ maxHistoryJobs) (hmarkers : s.storage.queue.countP Message.marker ≤ 2)
    (hclocks : s.storage.queue.countP Message.isClock ≤ 1) (hvalid : s.owner.limits.valid = true) :
    s.storage.queue.length ≤ fifoCapacity := by
  obtain ⟨done, rest, haccounts⟩ := h.accounts
  obtain ⟨uncovered, huncovered⟩ := haccounts.settled
  have hrest : rest = uncovered ++ s.storage.phase.inHand ++ s.storage.queue := by
    have hsent := haccounts.sent
    unfold Storage.sent at hsent
    rw [← huncovered, List.append_assoc, List.append_assoc] at hsent
    rw [List.append_assoc]
    exact (List.append_cancel_left hsent).symm
  have hgroups : (Spans.sum Message.credit s.storage.queue).groups ≤ maxGroups := by
    have hcharged := congrArg Credit.groups haccounts.charged
    rw [hrest, Spans.sum_append] at hcharged
    have hlimited := (Credit.contains_iff.1 h.funded.limited).1
    have hlimits : s.owner.limits.groups ≤ maxGroups := by
      simp only [RecorderLimits.valid, Bool.and_eq_true, decide_eq_true_eq] at hvalid
      exact hvalid.2
    simp only [Credit.add_groups] at hcharged
    change s.owner.charged.groups ≤ s.owner.limits.groups at hlimited
    omega
  have hsuffix : s.storage.queue.Sublist s.storage.sent := by
    unfold Storage.sent
    exact List.sublist_append_right _ _
  have hbarriers := h.barrier_once hreceiving
  rw [barriers_append] at hbarriers
  have hgapSeals := hsuffix.countP_le (p := Message.isGapSeal)
  have hgapSeal := h.gapSeal_once
  have hfinishes := hsuffix.countP_le (p := Message.isFinish)
  have hfinish := h.finish_once
  rw [length_counted]
  unfold fifoCapacity
  omega

/-- A clock anchor is queued only while the owner waits for its receipt. -/
theorem Credited.clock_adopt {receipt : Receipt} {charged referenceCredit : Credit} (h : Credited s)
    (hclock : ∀ assigned, .clockAnchor assigned ∈ s.storage.queue → s.owner.periodicPending = some assigned)
    (hshown : s.storage.Shown receipt) {assigned : ℕ} (hm : .clockAnchor assigned ∈ s.storage.queue) :
    (({ s.owner with charged, referenceCredit } : RecorderWorker layout).adopt receipt).periodicPending = some assigned := by
  obtain ⟨covered, hfront, hcovers⟩ := h.receipted.shown hshown
  obtain ⟨uncovered, hsettled⟩ := hfront
  have hchained := h.numbered.chained
  unfold Storage.sent at hchained
  rw [← hsettled, List.append_assoc, List.append_assoc] at hchained
  -- its number is above all that the receipt covers
  have habove := (hchained.right.bounds (List.mem_append_right _ (List.mem_append_right _ hm)) one_ne_zero).1
  rw [Nat.zero_add, ← hcovers.persisted] at habove
  exact Option.filter_eq_some_iff.2 ⟨hclock assigned hm, decide_eq_true habove⟩

theorem Offer.clock {m : Message} {o o' : RecorderWorker layout} (h : o.Offer m o') :
    (m.isClock = false ∧ o'.periodicPending = o.periodicPending) ∨
      ∃ assigned, m = .clockAnchor assigned ∧ o.periodicPending = none ∧ o'.periodicPending = some assigned := by
  cases h with
  | clockAnchor time first last quiet unfinished state next => exact .inr ⟨first, rfl, quiet, rfl⟩
  | _ => exact .inl ⟨rfl, rfl⟩

theorem Offer.limits {m : Message} {o o' : RecorderWorker layout} (h : o.Offer m o') : o'.limits = o.limits := by
  cases h <;> rfl

/-- A message with room in its budget finds a slot. -/
theorem Budgeted.send {m : Message} {o : RecorderWorker layout} (h : Budgeted s)
    (hreceiving : s.storage.phase.receiving = true) (offer : s.owner.Offer m o) (hspares : Spares s m) :
    Budgeted { s with owner := o, storage := { s.storage with queue := s.storage.queue ++ [m] } } := by
  have hcredited := h.toCredited.send hreceiving offer
  have hjobs : (s.storage.queue ++ [m]).countP Storage.isJob ≤ maxHistoryJobs := by
    rw [List.countP_append, List.countP_singleton]
    split_ifs with hjob
    · exact hspares.1 hjob
    · exact h.jobs
  have hmarkers : (s.storage.queue ++ [m]).countP Message.marker ≤ 2 := by
    rw [List.countP_append, List.countP_singleton]
    split_ifs with hmarker
    · exact hspares.2 hmarker
    · exact h.markers
  have hvalid : o.limits.valid = true := Offer.limits offer ▸ h.valid
  have hclocks : (∀ assigned, .clockAnchor assigned ∈ s.storage.queue ++ [m] → o.periodicPending = some assigned) ∧
      (s.storage.queue ++ [m]).countP Message.isClock ≤ 1 := by
    obtain ⟨hother, hsame⟩ | ⟨assigned, rfl, hquiet, hpending⟩ := Offer.clock offer
    · refine ⟨fun assigned hm => ?_, by rw [List.countP_append, List.countP_singleton, hother]; exact h.clocks⟩
      obtain hm | hm := List.mem_append.1 hm
      · exact hsame.trans (h.clock assigned hm)
      · rw [← List.mem_singleton.1 hm] at hother
        cases hother
    · -- no other anchor is queued
      have hnone : ∀ assigned, .clockAnchor assigned ∉ s.storage.queue := fun assigned hm => by
        rw [h.clock assigned hm] at hquiet
        cases hquiet
      refine ⟨fun other hm => ?_, ?_⟩
      · obtain hm | hm := List.mem_append.1 hm
        · exact absurd hm (hnone other)
        · cases List.mem_singleton.1 hm
          exact hpending
      · rw [List.countP_append, List.countP_eq_zero.2 fun m hm => ?_]
        · exact le_rfl
        · cases m <;> first | exact absurd hm (hnone _) | nofun
  exact ⟨hcredited, hjobs, hmarkers, hclocks.1, hclocks.2, hvalid,
    hcredited.length_queue hreceiving hjobs hmarkers hclocks.2 hvalid, h.refused⟩

/-- Only a job or a marker is ever refused a slot. -/
theorem Budgeted.refuse {m : Message} {o : RecorderWorker layout} (h : Budgeted s)
    (hreceiving : s.storage.phase.receiving = true) (offer : s.owner.Offer m o)
    (hfull : fifoCapacity ≤ s.storage.queue.length) : Storage.isJob m = true ∨ m.marker = true := by
  by_contra hother
  obtain ⟨hjob, hmarker⟩ := not_or.1 hother
  have hbounded := (h.send hreceiving offer ⟨fun h => absurd h hjob, fun h => absurd h hmarker⟩).bounded
  simp only [List.length_append, List.length_singleton] at hbounded
  omega

theorem Budgeted.of_same (h : Budgeted s) (hcredited : Credited s') (hqueue : s'.storage.queue <:+ s.storage.queue)
    (hpending : s'.owner.periodicPending = s.owner.periodicPending) (hlimits : s'.owner.limits = s.owner.limits)
    (hrefused : s'.storage.refused = s.storage.refused) : Budgeted s' where
  toCredited := hcredited
  jobs := hqueue.sublist.countP_le.trans h.jobs
  markers := hqueue.sublist.countP_le.trans h.markers
  clock assigned hm := hpending.trans (h.clock assigned (hqueue.subset hm))
  clocks := hqueue.sublist.countP_le.trans h.clocks
  valid := hlimits ▸ h.valid
  bounded := hqueue.length_le.trans h.bounded
  refused := hrefused ▸ h.refused

theorem Storage.work_refused (s : Storage) (move : WorkerMove) : (s.work move).refused = s.refused := by
  refine Storage.work_keeps (fun s' => s'.refused = s.refused) move rfl (fun s' hworked => ?_) fun s' _ hbroken => ?_
  · cases hworked <;> rfl
  · cases hbroken <;> rfl

theorem Micro.budgeted (h : Micro Thrifty s s') (hs : Budgeted s) : Budgeted s' := by
  have hcredited := h.credited hs.toCredited
  cases h with
  | worker move granted =>
    exact hs.of_same hcredited (s.storage.work_queue move) rfl rfl (s.storage.work_refused move)
  | sent message o offer granted receiving room => exact hs.send receiving offer granted
  | refused message o offer granted receiving full =>
    refine ⟨hcredited, hs.jobs, hs.markers, hs.clock, hs.clocks, hs.valid, hs.bounded, fun m hm => ?_⟩
    obtain hm | hm := List.mem_append.1 hm
    · exact hs.refused m hm
    · rw [List.mem_singleton.1 hm]
      exact hs.refuse receiving offer full
  | adopted receipt charged referenceCredit shown h =>
    exact ⟨hcredited, hs.jobs, hs.markers, fun _ => hs.toCredited.clock_adopt hs.clock shown, hs.clocks, hs.valid, hs.bounded,
      hs.refused⟩
  | reserved o h granted => cases h <;> exact hs.of_same hcredited List.suffix_rfl rfl rfl rfl
  | changed o h => cases h <;> exact hs.of_same hcredited List.suffix_rfl rfl rfl rfl
  | scheduled | failed | gapFailed | marked | slots | panicked => exact hs.of_same hcredited List.suffix_rfl rfl rfl rfl

/-! ### Runs of calls -/

/-- Polling and failing put nothing but clock anchors into the channel. -/
theorem Path.calm_count {p : Message → Bool} (h : Path Calm s s') (hp : ∀ m : Message, m.isClock = true → p m = false) :
    s'.storage.queue.countP p ≤ s.storage.queue.countP p := by
  refine h.keeps (I := fun s' => s'.storage.queue.countP p ≤ s.storage.queue.countP p) (fun s₁ s₂ hstep hle => ?_) le_rfl
  cases hstep with
  | worker move granted => exact (s₁.storage.work_queue move).sublist.countP_le.trans hle
  | sent message o offer granted receiving room =>
    have hclock : message.isClock = true := by
      obtain hquiet | hact | hact := granted
      · cases message <;> first | rfl | cases hquiet
      · cases hact
      · cases hact
    simpa [hp message hclock] using hle
  | _ => exact hle

/-- A call that would exceed a budget of the channel: a history request with eight history messages
queued, or a probe or an activation of the boot with two such messages queued. -/
def overfull (s : System layout) : Event → Bool
  | .call _ (.requestHistory _ _) => maxHistoryJobs ≤ s.storage.queue.countP Storage.isJob
  | .call _ (.requestRuns _) => maxHistoryJobs ≤ s.storage.queue.countP Storage.isJob
  | .call _ (.requestActivation _) => 2 ≤ s.storage.queue.countP Message.marker
  | .call _ (.requestProbe _) => 2 ≤ s.storage.queue.countP Message.marker
  | _ => false

def Overfull (s : System layout) (event : Event) : Prop := overfull s event = true

instance (s : System layout) (event : Event) : Decidable (Overfull s event) :=
  inferInstanceAs (Decidable (overfull s event = true))

theorem reportsGap_spares {act : Act} (h : reportsGap act) : Thrifty s act := by
  obtain ⟨gap, first, -, rfl⟩ | rfl := h
  · exact spares_of_other rfl rfl
  · trivial

theorem System.grants_thrifty {event : Event} (h : ¬ Overfull s event) : s.Grants Thrifty event := by
  cases event with
  | worker move => trivial
  | call schedule call =>
    intro s' act hpath hact
    have hjobs : s'.storage.queue.countP Storage.isJob ≤ s.storage.queue.countP Storage.isJob :=
      @Path.calm_count layout { s with schedule } s' _ hpath fun m hm => by cases m <;> first | rfl | cases hm
    have hmarkers : s'.storage.queue.countP Message.marker ≤ s.storage.queue.countP Message.marker :=
      @Path.calm_count layout { s with schedule } s' _ hpath fun m hm => by cases m <;> first | rfl | cases hm
    obtain hquiet | hact := hact
    · cases act with
      | send message =>
        cases message with
        | clockAnchor => exact spares_of_other rfl rfl
        | _ => cases hquiet
      | _ => trivial
    · cases call with
      | requestActivation root =>
        cases hact
        exact ⟨nofun, fun _ => hmarkers.trans_lt (by simpa [Overfull, overfull] using h)⟩
      | requestProbe submittedAt =>
        cases hact
        exact ⟨nofun, fun _ => hmarkers.trans_lt (by simpa [Overfull, overfull] using h)⟩
      | requestHistory filter limit =>
        obtain ⟨job, rfl⟩ := hact
        exact ⟨fun _ => hjobs.trans_lt (by simpa [Overfull, overfull] using h), nofun⟩
      | requestRuns limit =>
        obtain ⟨job, rfl⟩ := hact
        exact ⟨fun _ => hjobs.trans_lt (by simpa [Overfull, overfull] using h), nofun⟩
      | tryReserveLiveActivation | reserveFactGroup | reserveReferenceOperation =>
        cases hact
        trivial
      | commitReservedLiveActivation generation root lifecycle =>
        obtain ⟨root, live, rfl⟩ := hact
        exact spares_of_other rfl rfl
      | requestStart label submittedAt boundary =>
        obtain ⟨policy, first, rfl⟩ := hact
        exact spares_of_other rfl rfl
      | requestStop summary requestedAt =>
        obtain ⟨first, rfl⟩ := hact
        exact spares_of_other rfl rfl
      | requestFinish summary time =>
        obtain ⟨first, rfl⟩ := hact
        exact spares_of_other rfl rfl
      | tryAdmitAt group submittedAt | admitReservedFacts token group submittedAt =>
        obtain ⟨g, -, -, rfl⟩ | hgap := hact
        · exact spares_of_other rfl rfl
        · exact reportsGap_spares hgap
      | tryAdmitOperation operation =>
        obtain ⟨bytes, first, rfl⟩ | hgap := hact
        · exact spares_of_other rfl rfl
        · exact reportsGap_spares hgap
      | tryAdmitAnnotation note =>
        obtain ⟨bytes, assigned, rfl⟩ | hgap := hact
        · exact spares_of_other rfl rfl
        · exact reportsGap_spares hgap
      | commitReferenceAcceptance operation =>
        obtain ⟨accepted, bytes, assigned, rfl⟩ | rfl := hact
        · exact spares_of_other rfl rfl
        · trivial
      | captureReferenceCompletion facts time => exact reportsGap_spares hact
      | commitReferenceCompletion terminal =>
        obtain ⟨fact, capturedAt, terminal, bytes, first, rfl⟩ | rfl | hgap := hact
        · exact spares_of_other rfl rfl
        · trivial
        · exact reportsGap_spares hgap
      | failWithGap gap =>
        obtain ⟨first, rfl⟩ | rfl | ⟨-, rfl⟩ := hact
        · exact spares_of_other rfl rfl
        · trivial
        · trivial
      | _ => exact hact.elim

/-- In a run whose calls keep to the budgets, the channel holds no more than its capacity, and it has
a slot for every message with credit, every start, stop and finish, every clock anchor and every seal of a gap. -/
theorem fifo_always_has_slot {limits : RecorderLimits} {now : ℕ} {events : List Event} (hlimits : limits.valid = true)
    (h : ¬ Happens System.step Overfull (.opened limits now : System layout) events) :
    (after System.step (.opened limits now : System layout) events).storage.queue.length ≤ fifoCapacity ∧
      ∀ m ∈ (after System.step (.opened limits now : System layout) events).storage.refused,
        m.credit = 0 ∧ m.barrier = false ∧ m.isFinish = false ∧ m.isClock = false ∧ m.isGapSeal = false := by
  have hbudgeted : ∀ events, ¬ Happens System.step Overfull (.opened limits now : System layout) events →
      Budgeted (after System.step (.opened limits now : System layout) events) := by
    refine run_induction (I := fun events s =>
      ¬ Happens System.step Overfull (.opened limits now : System layout) events → Budgeted s)
      (fun _ => budgeted_opened now hlimits) fun events event ih hnever => ?_
    rw [happens_snoc, not_or] at hnever
    exact Path.keeps (fun _ _ => Micro.budgeted) (System.step_path event (System.grants_thrifty hnever.2)) (ih hnever.1)
  have hfinal := hbudgeted events h
  refine ⟨hfinal.bounded, fun m hm => ?_⟩
  obtain hjob | hmarker := hfinal.refused m hm
  · cases m <;> first | exact ⟨rfl, rfl, rfl, rfl, rfl⟩ | cases hjob
  · cases m with
    | activation root lifecycle => cases lifecycle <;> first | exact ⟨rfl, rfl, rfl, rfl, rfl⟩ | cases hmarker
    | probe => exact ⟨rfl, rfl, rfl, rfl, rfl⟩
    | _ => cases hmarker

/-! ### A run that exceeds one -/

def oneBoot : HistoryFilter := { fromTime := 0, toTime := 1, bootId := "00000000000000000000000000000000" }

/-- A client that asks for history and gives up, again and again, while the worker is stalled. -/
def impatient : ℕ → List Event
  | 0 => []
  | n + 1 => impatient n ++
    [.call unhurried (.requestHistory oneBoot 1), .call unhurried (.cancelHistory (n + 1))]

def impatientRun : List Event :=
  startCooling :: impatient 49 ++ [.call unhurried (.tryAdmitAt { facts := [.output 1], spare := 0 } 1)]

def impatientSystem : System heaterLayout := after System.step (.opened .default 0) impatientRun

theorem fifo_refuses_credit : impatientSystem.storage.phase.receiving = true ∧
    impatientSystem.storage.refused.map (fun m => (m.credit.groups, m.isGapSeal)) = [(1, false), (0, true)] := by
  decide +kernel

theorem fifo_always_has_slot_cooling : coolingSystem.storage.queue.length ≤ fifoCapacity ∧
    ∀ m ∈ coolingSystem.storage.refused,
      m.credit = 0 ∧ m.barrier = false ∧ m.isFinish = false ∧ m.isClock = false ∧ m.isGapSeal = false :=
  fifo_always_has_slot (by decide) (by decide +kernel)

end LabRuntime.Recorder
