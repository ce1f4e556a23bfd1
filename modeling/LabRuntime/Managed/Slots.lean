import LabRuntime.Managed.Pool

/-! What a slot of the pool keeps: a live slot holds exactly the job it is busy with, in one of the
places a job can be, and a dead one holds none. -/

namespace LabRuntime

variable {N : Type}

/-! ### Threads -/

namespace Worker

/-- Everything a thread can do in one move. -/
inductive Moves (jobs : Bool) (w : Worker N) : Worker N → Prop
  | idle : Moves jobs w w
  | received {work : Work N} (ready : w.activity = .receiving) (queued : w.queue = some work) :
    Moves jobs w { w with queue := none, activity := .running work }
  | answered {work : Work N} {completion : ComponentCompletion N} (running : w.activity = .running work)
    (free : w.results = none) (own : completion.correlation = work.invocation.correlation) :
    Moves jobs w { w with activity := .receiving, results := some (work.ticket, completion) }
  | discarded {work : Work N} {ticket : ℕ} {completion : ComponentCompletion N} (running : w.activity = .running work)
    (full : w.results = some (ticket, completion)) :
    Moves jobs w { w with activity := .receiving, lost := w.lost ++ [work.ticket] }
  | died {work : Work N} (running : w.activity = .running work) : Moves jobs w { w with activity := .unwinding (some work) }
  | left (ready : w.activity = .receiving) (queued : w.queue = none) (open_ : jobs = false) :
    Moves jobs w { w with activity := .unwinding none }
  | droppedReceiver (ended : w.activity.ended = true) : Moves jobs w { w with receiver := false, queue := none }
  | droppedSender (ended : w.activity.ended = true) : Moves jobs w { w with sender := false }

theorem move_moves (jobs : Bool) (w : Worker N) (step : WorkerStep N) : Moves jobs w (w.move jobs step) := by
  cases step with
  | receive =>
    simp only [move]
    split
    · next ready queued => exact .received ready queued
    · exact .idle
  | finish outcome now =>
    simp only [move]
    split
    · next running =>
      simp only [send]
      split
      · next free => exact .answered running free rfl
      · next full => exact .discarded running full
    · exact .idle
  | panic =>
    simp only [move]
    split
    · next running => exact .died running
    · exact .idle
  | leave =>
    simp only [move]
    split
    · next ready queued =>
      split_ifs with open_
      · exact .idle
      · exact .left ready queued (by simpa using open_)
    · exact .idle
  | dropReceiver =>
    simp only [move]
    split_ifs with ended
    · exact .droppedReceiver ended
    · exact .idle
  | dropSender =>
    simp only [move]
    split_ifs with ended
    · exact .droppedSender ended
    · exact .idle

def keyOf (work : Work N) : ℕ × Correlation := (work.ticket, work.invocation.correlation)

/-- Every job in the hands of the thread: queued, running, lost with it, or answered and not collected. -/
def entries (w : Worker N) : List (ℕ × Correlation) :=
  w.queue.toList.map keyOf ++ w.activity.work.toList.map keyOf ++ w.results.toList.map fun r => (r.1, r.2.correlation)

/-- What a thread that is past its loop has given up. -/
structure Sound (jobs : Bool) (w : Worker N) : Prop where
  lost : w.lost = []
  receiver : w.receiver = false → w.activity.ended = true
  sender : w.sender = false → w.activity.ended = true
  left : w.activity.ended = true → w.activity.work = none → jobs = false ∧ w.queue = none

theorem start_sound (jobs : Bool) : (start : Worker N).Sound jobs :=
  { lost := rfl
    receiver := fun h => absurd h (by simp [start])
    sender := fun h => absurd h (by simp [start])
    left := fun h => absurd h (by simp [start, Activity.ended]) }

/-- A running thread has both of its ends. -/
theorem Sound.has_ends {jobs : Bool} {w : Worker N} (hw : w.Sound jobs) (h : w.activity.ended = false) :
    w.receiver = true ∧ w.sender = true := by
  constructor
  · by_contra hreceiver
    simp [hw.receiver (by simpa using hreceiver)] at h
  · by_contra hsender
    simp [hw.sender (by simpa using hsender)] at h

theorem entries_length (w : Worker N) :
    w.entries.length = w.queue.toList.length + w.activity.work.toList.length + w.results.toList.length := by
  simp [entries, Nat.add_assoc]

theorem entries_nil {w : Worker N} : w.entries = [] ↔ w.queue = none ∧ w.activity.work = none ∧ w.results = none := by
  simp [entries]

/-- A thread with at most one job in hand and one past its queue has none queued. -/
theorem queue_free {w : Worker N} (hone : w.entries.length ≤ 1)
    (h : w.activity.work.isSome = true ∨ w.results.isSome = true) : w.queue = none := by
  rw [entries_length] at hone
  cases hqueue : w.queue with
  | none => rfl
  | some work =>
    rw [hqueue, Option.toList_some, List.length_singleton] at hone
    rcases h with h | h
    · obtain ⟨other, h⟩ := Option.isSome_iff_exists.1 h
      rw [h, Option.toList_some, List.length_singleton] at hone
      omega
    · obtain ⟨other, h⟩ := Option.isSome_iff_exists.1 h
      rw [h, Option.toList_some, List.length_singleton] at hone
      omega

theorem work_free {w : Worker N} (hone : w.entries.length ≤ 1) (h : w.results.isSome = true) : w.activity.work = none := by
  rw [entries_length] at hone
  obtain ⟨result, h⟩ := Option.isSome_iff_exists.1 h
  rw [h, Option.toList_some, List.length_singleton] at hone
  cases hwork : w.activity.work with
  | none => rfl
  | some work =>
    rw [hwork, Option.toList_some, List.length_singleton] at hone
    omega

/-- A thread with at most one job in hand keeps it, and cannot find its completion mailbox full. -/
theorem Moves.sound {jobs : Bool} {w w' : Worker N} (h : Moves jobs w w') (hw : w.Sound jobs)
    (hone : w.entries.length ≤ 1) : w'.Sound jobs ∧ w'.entries = w.entries := by
  cases h with
  | idle => exact ⟨hw, rfl⟩
  | received ready queued =>
    obtain ⟨hreceiver, hsender⟩ := hw.has_ends (by simp [ready, Activity.ended])
    refine ⟨⟨hw.lost, ?_, ?_, ?_⟩, ?_⟩
    · simp [hreceiver]
    · simp [hsender]
    · simp [Activity.ended]
    · simp [entries, queued, ready, Activity.work]
  | answered running free own =>
    obtain ⟨hreceiver, hsender⟩ := hw.has_ends (by simp [running, Activity.ended])
    have hqueue := queue_free hone (.inl (by rw [running]; rfl))
    refine ⟨⟨hw.lost, ?_, ?_, ?_⟩, ?_⟩
    · simp [hreceiver]
    · simp [hsender]
    · simp [Activity.ended]
    · simp [entries, hqueue, running, free, Activity.work, keyOf, own]
  | discarded running full =>
    have hwork := work_free hone (by rw [full]; rfl)
    simp [running, Activity.work] at hwork
  | died running =>
    obtain ⟨hreceiver, hsender⟩ := hw.has_ends (by simp [running, Activity.ended])
    refine ⟨⟨hw.lost, ?_, ?_, ?_⟩, ?_⟩
    · simp [hreceiver]
    · simp [hsender]
    · simp [Activity.work]
    · simp [entries, running, Activity.work]
  | left ready queued open_ =>
    obtain ⟨hreceiver, hsender⟩ := hw.has_ends (by simp [ready, Activity.ended])
    refine ⟨⟨hw.lost, ?_, ?_, ?_⟩, ?_⟩
    · simp [hreceiver]
    · simp [hsender]
    · exact fun _ _ => ⟨open_, queued⟩
    · simp [entries, ready, Activity.work]
  | droppedReceiver ended =>
    have hqueue : w.queue = none := by
      cases hwork : w.activity.work with
      | none => exact (hw.left ended hwork).2
      | some work => exact queue_free hone (.inl (by rw [hwork]; rfl))
    refine ⟨⟨hw.lost, fun _ => ended, hw.sender, fun _ hwork => ⟨(hw.left ended hwork).1, rfl⟩⟩, ?_⟩
    simp [entries, hqueue]
  | droppedSender ended => exact ⟨⟨hw.lost, hw.receiver, fun _ => ended, hw.left⟩, rfl⟩

/-- A thread past its loop only drops its ends. -/
theorem Moves.of_ended {jobs : Bool} {w w' : Worker N} (h : Moves jobs w w') (ended : w.activity.ended = true) :
    w'.activity = w.activity ∧ w'.results = w.results ∧ (w.queue = none → w'.queue = none) ∧
      (w.sender = false → w'.sender = false) := by
  cases h with
  | received ready => simp [ready, Activity.ended] at ended
  | answered running => simp [running, Activity.ended] at ended
  | discarded running => simp [running, Activity.ended] at ended
  | died running => simp [running, Activity.ended] at ended
  | left ready => simp [ready, Activity.ended] at ended
  | idle => exact ⟨rfl, rfl, id, id⟩
  | droppedReceiver => exact ⟨rfl, rfl, fun _ => rfl, id⟩
  | droppedSender => exact ⟨rfl, rfl, id, fun _ => rfl⟩

/-- The thread has this job and has neither returned from it nor died of it. -/
def Holds (w : Worker N) (ticket : ℕ) : Prop :=
  (∃ work, w.queue = some work ∧ work.ticket = ticket) ∨
    (∃ work, w.activity = .running work ∧ work.ticket = ticket) ∨
      ∃ work, w.activity = .unwinding (some work) ∧ work.ticket = ticket ∧ w.sender = true

/-- Collecting from the thread yields something. -/
def Ready (w : Worker N) : Prop := w.results.isSome = true ∨ w.sender = false

theorem Moves.ready {jobs : Bool} {w w' : Worker N} (h : Moves jobs w w') (hw : w.Ready) : w'.Ready := by
  cases h with
  | answered => exact .inl rfl
  | droppedSender => exact .inr rfl
  | _ => exact hw

end Worker

/-! ### Slots -/

namespace Slot

/-- The job a busy slot answers for. -/
def keyOf (busy : Busy) : ℕ × Correlation := (busy.ticket, busy.correlation)

structure Sound (closed : Bool) (slot : Slot N) : Prop where
  worker : slot.worker.Sound slot.jobs
  live : slot.lifecycle = .alive → slot.worker.entries = slot.busy.toList.map keyOf
  jobs : closed = false → slot.lifecycle = .alive → slot.jobs = true
  dead : slot.lifecycle = .dead → slot.busy = none ∧ slot.jobs = false ∧ slot.worker.queue = none ∧
    slot.worker.results = none ∧ slot.worker.activity.ended = true ∧
      (slot.worker.activity.work.isSome = true → slot.worker.sender = false)

theorem start_sound : (start : Slot N).Sound false :=
  { worker := Worker.start_sound _
    live := fun _ => rfl
    jobs := fun _ _ => rfl
    dead := fun h => absurd h (by simp [start]) }

variable {closed : Bool} {slot : Slot N}

theorem Sound.entries_le (h : slot.Sound closed) : slot.worker.entries.length ≤ 1 := by
  cases hlife : slot.lifecycle with
  | alive =>
    rw [h.live hlife]
    cases slot.busy <;> simp
  | dead =>
    obtain ⟨_, _, hqueue, hresults, _⟩ := h.dead hlife
    rw [Worker.entries_length, hqueue, hresults]
    cases slot.worker.activity.work <;> simp

theorem move_sound (h : slot.Sound closed) (step : WorkerStep N) : (slot.move step).Sound closed := by
  have hmoves := Worker.move_moves slot.jobs slot.worker step
  obtain ⟨hworker, hentries⟩ := hmoves.sound h.worker h.entries_le
  refine ⟨hworker, fun hlife => hentries.trans (h.live hlife), h.jobs, fun hlife => ?_⟩
  obtain ⟨hbusy, hjobs, hqueue, hresults, hended, hwork⟩ := h.dead hlife
  obtain ⟨hactivity, hkept, hempty, hsender⟩ := hmoves.of_ended hended
  refine ⟨hbusy, hjobs, hempty hqueue, hkept.trans hresults, ?_, ?_⟩
  · rw [move, hactivity]
    exact hended
  · intro hsome
    rw [move, hactivity] at hsome
    exact hsender (hwork hsome)

/-- A busy slot whose thread no longer has the job has its answer, or has lost its thread. -/
theorem Sound.ready_of_not_holds {busy : Busy} (h : slot.Sound closed) (hlife : slot.lifecycle = .alive)
    (hbusy : slot.busy = some busy) (hnot : ¬ slot.worker.Holds busy.ticket) : slot.worker.Ready := by
  have hentries := h.live hlife
  rw [hbusy, Option.toList_some, List.map_singleton] at hentries
  have hkey : ∀ work : Work N, Worker.keyOf work ∈ slot.worker.entries → work.ticket = busy.ticket := by
    intro work hmem
    rw [hentries, List.mem_singleton] at hmem
    exact congrArg Prod.fst hmem
  -- with neither a queued nor a running job, what the slot is busy with can only be its answer
  have hanswer : slot.worker.queue = none → slot.worker.activity.work = none → slot.worker.Ready := by
    intro hqueue hwork
    have hlength := congrArg List.length hentries
    rw [Worker.entries_length, hqueue, hwork] at hlength
    refine .inl ?_
    cases hresults : slot.worker.results with
    | some result => rfl
    | none => simp [hresults] at hlength
  cases hqueue : slot.worker.queue with
  | some work =>
    exact absurd (.inl ⟨work, hqueue, hkey work (by simp [Worker.entries, hqueue])⟩) hnot
  | none =>
    cases hactivity : slot.worker.activity with
    | running work =>
      exact absurd (.inr (.inl ⟨work, hactivity, hkey work (by simp [Worker.entries, hactivity, Activity.work])⟩)) hnot
    | unwinding left =>
      cases left with
      | some work =>
        by_contra hready
        have hsender : slot.worker.sender = true := by
          by_contra hsender
          exact hready (.inr (by simpa using hsender))
        exact hnot (.inr (.inr ⟨work, hactivity, hkey work (by simp [Worker.entries, hactivity, Activity.work]), hsender⟩))
      | none => exact hanswer hqueue (by rw [hactivity]; rfl)
    | receiving => exact hanswer hqueue (by rw [hactivity]; rfl)

/-! ### Visits -/

/-- What offering a job to a sound slot comes to. -/
theorem offer_cases {now : ℕ} {invocation : Invocation N} {ticket : ℕ} (h : slot.Sound closed) (hopen : closed = false) :
    slot.offer now invocation ticket = .skipped ∧ slot.lifecycle = .dead ∨
    slot.offer now invocation ticket = .occupied ∧ slot.lifecycle = .alive ∧ slot.busy.isSome = true ∨
    slot.offer now invocation ticket = .failed .deadline ∨
    ∃ deadline, slot.lifecycle = .alive ∧ slot.busy = none ∧ slot.jobs = true ∧
      slot.offer now invocation ticket = .taken
        { slot with
          worker := { slot.worker with queue := some ⟨invocation, deadline, ticket⟩ }
          busy := some ⟨invocation.correlation, deadline, false, false, ticket⟩ } deadline := by
  unfold offer
  cases hlife : slot.lifecycle with
  | dead => exact .inl ⟨if_pos rfl, rfl⟩
  | alive =>
    rw [if_neg (by simp)]
    cases hbusy : slot.busy with
    | some busy => exact .inr (.inl ⟨if_pos rfl, rfl, rfl⟩)
    | none =>
      -- an idle live slot has no job in hand, so its thread is in its loop
      have hentries := h.live hlife
      have hjobs := h.jobs hopen hlife
      rw [hbusy] at hentries
      obtain ⟨hqueue, hwork, _⟩ := Worker.entries_nil.1 hentries
      have hreceiver : slot.worker.receiver = true := by
        by_contra hclosed
        have hleft := h.worker.left (h.worker.receiver (by simpa using hclosed)) hwork
        simp [hjobs] at hleft
      refine .inr (.inr ?_)
      simp only [Option.isSome_none, Bool.false_eq_true, if_false]
      cases hdeadline : instantAdd now jobDeadline with
      | none => exact .inl rfl
      | some deadline =>
        refine .inr ⟨deadline, trivial, trivial, hjobs, ?_⟩
        simp only [hjobs, hreceiver, hqueue, Bool.true_eq_false, if_false, Option.isSome_none, Bool.false_eq_true]

/-- A taken job is the slot's only one. -/
theorem taken_sound {invocation : Invocation N} {deadline ticket : ℕ} (h : slot.Sound closed)
    (hlife : slot.lifecycle = .alive) (hbusy : slot.busy = none) (hjobs : slot.jobs = true) :
    Sound closed
      { slot with
        worker := { slot.worker with queue := some ⟨invocation, deadline, ticket⟩ }
        busy := some ⟨invocation.correlation, deadline, false, false, ticket⟩ } := by
  have hentries := h.live hlife
  rw [hbusy] at hentries
  refine ⟨⟨h.worker.lost, h.worker.receiver, h.worker.sender, ?_⟩, ?_, fun _ _ => hjobs, ?_⟩
  · intro hended hwork
    have hleft := h.worker.left hended hwork
    simp [hjobs] at hleft
  · intro _
    obtain ⟨_, hactivity, hresults⟩ := Worker.entries_nil.1 hentries
    simp only [Worker.entries, hactivity, hresults]
    rfl
  · intro hdead
    simp [hlife] at hdead

/-- A result that waits is that of the job the slot is busy with, and nothing else is in hand. -/
theorem Sound.waiting {ticket : ℕ} {completion : ComponentCompletion N} (h : slot.Sound closed)
    (hlife : slot.lifecycle = .alive) (hresults : slot.worker.results = some (ticket, completion)) :
    ∃ busy, slot.busy = some busy ∧ busy.ticket = ticket ∧ busy.correlation = completion.correlation ∧
      slot.worker.queue = none ∧ slot.worker.activity.work = none := by
  have hentries := h.live hlife
  have hsome : slot.worker.results.isSome = true := by rw [hresults]; rfl
  have hqueue := Worker.queue_free h.entries_le (.inr hsome)
  have hwork := Worker.work_free h.entries_le hsome
  cases hbusy : slot.busy with
  | none => simp [Worker.entries, hresults, hbusy] at hentries
  | some busy =>
    simp only [Worker.entries, hqueue, hwork, hresults, hbusy, Option.toList_some, Option.toList_none, List.map_nil,
      List.map_cons, List.nil_append, List.cons.injEq, and_true, keyOf, Prod.mk.injEq] at hentries
    exact ⟨busy, rfl, hentries.1.symm, hentries.2.symm, hqueue, hwork⟩

/-- What collecting from a sound slot comes to. -/
theorem collect_cases {now : ℕ} (h : slot.Sound closed) :
    slot.collect now = (none, slot) ∧ (slot.lifecycle = .alive → ¬ slot.worker.Ready) ∨
    (∃ busy completion, slot.lifecycle = .alive ∧ slot.busy = some busy ∧ completion.correlation = busy.correlation ∧
      (completion.timely = true → busy.expired = false ∧ now < busy.deadline) ∧
      slot.worker.queue = none ∧ slot.worker.activity.work = none ∧
      slot.collect now = (some (busy.ticket, completion),
        { slot with busy := none, worker := { slot.worker with results := none } })) ∨
    (∃ busy, slot.lifecycle = .alive ∧ slot.busy = some busy ∧ slot.worker.results = none ∧ slot.worker.sender = false ∧
      slot.collect now = (some (busy.ticket, { correlation := busy.correlation, timely := false, outcome := .error .executor }),
        { slot with lifecycle := .dead, jobs := false, busy := none })) ∨
    slot.lifecycle = .alive ∧ slot.busy = none ∧ slot.worker.results = none ∧ slot.worker.sender = false ∧
      slot.collect now = (none, { slot with lifecycle := .dead, jobs := false }) := by
  unfold collect
  cases hlife : slot.lifecycle with
  | dead => exact .inl ⟨if_pos rfl, fun halive => by simp at halive⟩
  | alive =>
    rw [if_neg (by simp)]
    cases hresults : slot.worker.results with
    | some r =>
      obtain ⟨ticket, completion⟩ := r
      obtain ⟨busy, hbusy, rfl, hown, hqueue, hwork⟩ := h.waiting hlife hresults
      rw [hbusy]
      refine .inr (.inl ⟨busy, _, rfl, rfl, ?_, ?_, hqueue, hwork, rfl⟩)
      · exact hown.symm
      · intro htimely
        simp only [Bool.and_eq_true, Bool.not_eq_true', decide_eq_true_eq] at htimely
        exact ⟨htimely.2.1.1, htimely.2.1.2⟩
    | none =>
      cases hsender : slot.worker.sender with
      | true =>
        refine .inl ⟨if_pos rfl, fun _ hready => ?_⟩
        rcases hready with hready | hready
        · simp [hresults] at hready
        · simp [hsender] at hready
      | false =>
        refine .inr (.inr ?_)
        cases hbusy : slot.busy with
        | some busy => exact .inl ⟨busy, rfl, rfl, rfl, rfl, rfl⟩
        | none => exact .inr ⟨rfl, rfl, rfl, rfl, rfl⟩

/-- A slot whose result was collected is idle. -/
theorem collected_sound (h : slot.Sound closed) (hlife : slot.lifecycle = .alive) (hqueue : slot.worker.queue = none)
    (hwork : slot.worker.activity.work = none) :
    Sound closed { slot with busy := none, worker := { slot.worker with results := none } } := by
  refine ⟨⟨h.worker.lost, h.worker.receiver, h.worker.sender, h.worker.left⟩, fun _ => ?_, h.jobs, fun hdead => ?_⟩
  · exact Worker.entries_nil.2 ⟨hqueue, hwork, rfl⟩
  · simp [hlife] at hdead

/-- A slot whose thread is gone holds nothing more. -/
theorem dead_sound (h : slot.Sound closed) (hresults : slot.worker.results = none)
    (hsender : slot.worker.sender = false) :
    Sound closed { slot with lifecycle := .dead, jobs := false, busy := none } := by
  have hended := h.worker.sender hsender
  have hqueue : slot.worker.queue = none := by
    cases hwork : slot.worker.activity.work with
    | none => exact (h.worker.left hended hwork).2
    | some work => exact Worker.queue_free h.entries_le (.inl (by rw [hwork]; rfl))
  refine ⟨⟨h.worker.lost, h.worker.receiver, h.worker.sender, fun _ _ => ⟨rfl, hqueue⟩⟩, fun halive => ?_, fun _ halive => ?_, ?_⟩
  · simp at halive
  · simp at halive
  · exact fun _ => ⟨rfl, rfl, hqueue, hresults, hended, fun _ => hsender⟩

end Slot
end LabRuntime
