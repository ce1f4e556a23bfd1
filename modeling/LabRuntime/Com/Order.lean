import LabRuntime.Com.Pipe

/-! The order of a session: when a request may start on the device, and the session as a byte pipe. -/

namespace LabRuntime.Com

open History

namespace Happening

def passes : Happening → List Request
  | .passed request => [request]
  | _ => []

def begins : Happening → List Request
  | .began request => [request]
  | _ => []

/-- The bytes that the device returned. -/
def returns : Happening → List UInt8
  | .readOnce _ (.ok bytes) => bytes
  | _ => []

/-- Neither a request that starts nor one that is refused. -/
def plain : Happening → Bool
  | .refused _ | .passed _ | .began _ => false
  | _ => true

/-- What may happen after `earlier`: a request starts when it is the one that passed the stop flag, every
frame before it is complete and no call of the device failed, and it passes when no stop was requested. -/
def Proper (earlier : List Happening) : Happening → Prop
  | .began request => earlier.flatMap passes = earlier.flatMap begins ++ [request] ∧
      earlier.flatMap given = (earlier.flatMap frames).flatten ∧ ∀ h ∈ earlier, h.fails = false
  | .passed _ => .stopRequested ∉ earlier ∧ earlier.flatMap passes = earlier.flatMap begins
  | .refused _ => False
  | _ => True

variable {earlier later : List Happening}

theorem passes_of_proper (h : Hitherto Proper earlier) : earlier.flatMap passes = earlier.flatMap begins ∨
    ∃ request, earlier.flatMap passes = earlier.flatMap begins ++ [request] := by
  induction earlier using List.reverseRecOn with
  | nil => exact .inl rfl
  | append_singleton earlier e ih =>
    obtain ⟨hearlier, hlast⟩ := hitherto_snoc.1 h
    have hsame := ih hearlier
    rw [List.flatMap_append, List.flatMap_append, List.flatMap_singleton, List.flatMap_singleton]
    cases e with
    | passed request =>
      refine .inr ⟨request, ?_⟩
      rw [hlast.2]
      simp [passes, begins]
    | began request =>
      refine .inl ?_
      rw [hlast.1]
      simp [passes, begins]
    | _ => simpa [passes, begins] using hsame

/-- After a stop was requested, only the request that had passed before may start. -/
theorem begins_of_proper (h : Hitherto Proper (earlier ++ .stopRequested :: later)) :
    later.flatMap begins = [] ∨ ∃ request, later.flatMap begins = [request] ∧ .passed request ∈ earlier := by
  have hlater : later.flatMap passes = [] := by
    rw [List.flatMap_eq_nil_iff]
    intro e he
    obtain ⟨pre, post, rfl⟩ := List.append_of_mem he
    have hproper := h (earlier ++ .stopRequested :: pre) e post (by simp)
    cases e with
    | passed request => exact absurd (by simp) hproper.1
    | _ => rfl
  have hpasses : (earlier ++ .stopRequested :: later).flatMap passes = earlier.flatMap passes := by
    rw [List.flatMap_append, List.flatMap_cons, hlater]
    simp [passes]
  have hbegins : (earlier ++ .stopRequested :: later).flatMap begins = earlier.flatMap begins ++ later.flatMap begins := by
    rw [List.flatMap_append, List.flatMap_cons]
    rfl
  have hwhole := passes_of_proper h
  rw [hpasses, hbegins] at hwhole
  obtain hearlier | ⟨request, hearlier⟩ := passes_of_proper h.left
  · -- every request that passed has started
    refine .inl ?_
    rw [hearlier] at hwhole
    obtain hall | ⟨request, hall⟩ := hwhole
    · simpa using hall
    · simp at hall
  · rw [hearlier] at hwhole
    obtain hall | ⟨request', hall⟩ := hwhole
    · refine .inr ⟨request, (List.append_cancel_left hall).symm, ?_⟩
      have hmem : request ∈ earlier.flatMap passes := by rw [hearlier]; simp
      obtain ⟨e, he, hrequest⟩ := List.mem_flatMap.1 hmem
      cases e with
      | passed request' =>
        obtain rfl : request = request' := by simpa [passes] using hrequest
        exact he
      | _ => cases hrequest
    · refine .inl ?_
      rw [List.append_assoc] at hall
      have hlength := congrArg List.length (List.append_cancel_left hall)
      rw [List.length_append, List.length_singleton, List.length_singleton] at hlength
      exact List.length_eq_zero_iff.1 (by omega)

end Happening

/-- The request that passed the stop flag and did not start. -/
def Phase.gate : Phase → List Request
  | .checked request => if request.isData then [request] else []
  | _ => []

namespace Session

variable {s s' : Session}

structure Ordered (s : Session) : Prop where
  fresh : .stopRequested ∈ s.trace → s.stop = true
  gated : s.total Happening.passes = s.total Happening.begins ++ s.worker.phase.gate
  order : Hitherto Happening.Proper s.trace

theorem ordered_spawned (retry : OpenRetryPolicy) : (spawned retry).Ordered := ⟨nofun, rfl, hitherto_nil⟩

/-- A step that starts nothing. -/
theorem Ordered.grows (h : s.Ordered) (stop : s.stop = true → s'.stop = true)
    (gate : s'.worker.phase.gate = s.worker.phase.gate)
    (trace : s'.trace = s.trace ∨ ∃ e : Happening, s'.trace = s.trace ++ [e] ∧ e.plain = true ∧
      (e = .stopRequested → s'.stop = true)) : s'.Ordered := by
  obtain htrace | ⟨e, htrace, hplain, hstop⟩ := trace
  · refine ⟨fun hmem => stop (h.fresh (htrace ▸ hmem)), ?_, by rw [htrace]; exact h.order⟩
    unfold total
    rw [htrace, gate]
    exact h.gated
  · have hquiet : e.passes = [] ∧ e.begins = [] := by cases e <;> first | exact ⟨rfl, rfl⟩ | cases hplain
    refine ⟨fun hmem => ?_, ?_, ?_⟩
    · rw [htrace] at hmem
      obtain hmem | hmem := List.mem_append.1 hmem
      · exact stop (h.fresh hmem)
      · exact hstop (List.mem_singleton.1 hmem).symm
    · simpa [total, htrace, hquiet, gate] using h.gated
    · rw [htrace]
      refine hitherto_snoc.2 ⟨h.order, ?_⟩
      cases e <;> first | exact trivial | cases hplain

theorem Ordered.began (h : s.Ordered) (ha : s.Account) {request : Request} (phase : s.worker.phase = .checked request)
    (data : request.isData = true) {next : Phase} (gate : next.gate = []) :
    ((s.note (.began request)).move next).Ordered := by
  have hgated := h.gated
  rw [phase, show (Phase.checked request).gate = [request] from if_pos data] at hgated
  refine ⟨fun hmem => ?_, ?_, hitherto_snoc.2 ⟨h.order, hgated, ha.complete phase data, fun e he => ?_⟩⟩
  · obtain hmem | hmem := List.mem_append.1 hmem
    · exact h.fresh hmem
    · cases List.mem_singleton.1 hmem
  · rw [total_note_move, total_note_move]
    change _ = _ ++ next.gate
    rw [gate, hgated]
    simp [Happening.passes, Happening.begins]
  · rw [← Bool.not_eq_true]
    exact fun hfails => ha.sound (by rw [phase]; exact data) ⟨e, he, hfails⟩

theorem frame_gate (bytes : List UInt8) (offset : ℕ) : (frame bytes offset).gate = [] := by
  unfold frame
  split_ifs <;> rfl

theorem Ordered.worked (h : s.Ordered) (ha : s.Account) (hw : s.Worked s') : s'.Ordered := by
  cases hw with
  | stopped phase stop =>
    refine h.grows id ?_ (.inl rfl)
    cases hphase : s.worker.phase <;> first | rfl | (rw [hphase] at phase; cases phase)
  | passed request phase data running =>
    have hgated := h.gated
    rw [phase, show (Phase.taken request).gate = [] from rfl, List.append_nil] at hgated
    have hfresh : .stopRequested ∉ s.trace := fun hmem => by cases (h.fresh hmem).symm.trans running
    refine ⟨fun hmem => ?_, ?_, hitherto_snoc.2 ⟨h.order, hfresh, hgated⟩⟩
    · obtain hmem | hmem := List.mem_append.1 hmem
      · exact h.fresh hmem
      · cases List.mem_singleton.1 hmem
    · rw [total_note_move, total_note_move]
      change _ = _ ++ (Phase.checked request).gate
      rw [show (Phase.checked request).gate = [request] from if_pos data, hgated]
      simp [Happening.passes, Happening.begins]
  | beganWrite bytes phase => exact h.began ha phase rfl (frame_gate bytes 0)
  | beganRead maximum phase => exact h.began ha phase rfl rfl
  | stopTaken phase => exact h.grows (fun _ => rfl) (by rw [phase]; rfl) (.inr ⟨_, rfl, rfl, fun _ => rfl⟩)
  | wrote bytes offset written phase =>
    exact h.grows id (by rw [phase]; exact frame_gate _ _) (.inr ⟨_, rfl, rfl, nofun⟩)
  | writeFailed bytes offset result error phase | read maximum bytes phase | readFailed maximum error phase =>
    exact h.grows id (by rw [phase]; rfl) (.inr ⟨_, rfl, rfl, nofun⟩)
  | panicked phase =>
    refine h.grows id ?_ (.inr ⟨_, rfl, rfl, nofun⟩)
    cases hphase : s.worker.phase <;> first | rfl | (rw [hphase] at phase; cases phase)
  | unheard phase gone =>
    obtain hphase | ⟨c, hphase⟩ | ⟨c, hphase⟩ := phase <;> exact h.grows id (by rw [hphase]; rfl) (.inl rfl)
  | entered phase =>
    obtain hphase | hphase := phase <;> exact h.grows id (by rw [hphase]; rfl) (.inl rfl)
  | deviceDropped phase | requestsDropped phase | completionsDropped phase => exact h.grows id rfl (.inl rfl)
  | _ => exact h.grows id (by simp only [*]; rfl) (.inl rfl)

/-- The owner goes on in its call. -/
theorem Ordered.standing (h : s.Ordered) {stand : Stand} {trace : List Happening}
    (grows : trace = s.trace ∨ ∃ call answer, trace = s.trace ++ [.returned call answer]) : Ordered { s with stand, trace } := by
  refine h.grows id rfl (grows.imp id ?_)
  rintro ⟨call, answer, rfl⟩
  exact ⟨_, rfl, rfl, nofun⟩

/-- The owner's accesses leave the worker where it is. -/
theorem Ordered.kept (h : s.Ordered) (worker : s'.worker = s.worker) (stop : s'.stop = s.stop) (trace : s'.trace = s.trace) :
    s'.Ordered := h.grows (fun hstop => stop.trans hstop) (by rw [worker]) (.inl trace)

theorem Ordered.receive (h : s.Ordered) : s.receive.Ordered := by
  unfold Session.receive
  split <;> exact h.kept rfl rfl rfl

theorem Ordered.noticeFinished (h : s.Ordered) : s.noticeFinished.Ordered := by
  unfold Session.noticeFinished
  split_ifs
  · exact h.kept rfl rfl rfl
  · exact h

theorem Ordered.fence (h : s.Ordered) : s.fence.Ordered := by
  unfold Session.fence
  dsimp only
  split_ifs <;> exact h.grows (fun _ => rfl) rfl (.inr ⟨_, rfl, rfl, fun _ => rfl⟩)

theorem Ordered.hinted (h : s.Ordered) : (s.trySend .stop).2.Ordered := by
  unfold trySend
  split_ifs
  · exact h
  · exact h
  · exact h.kept rfl rfl rfl

theorem Ordered.retired (h : s.Ordered) (call : Call) : (s.retired call).Ordered := by
  unfold Session.retired
  split_ifs
  · exact h.standing (.inr ⟨call, .done, rfl⟩)
  · exact h.standing (.inl rfl)

theorem Ordered.join (h : s.Ordered) : s.join.Ordered := by
  unfold Session.join
  split_ifs
  · exact h.kept rfl rfl rfl
  · exact h

theorem Ordered.conclude (h : s.Ordered) (ht : s.Tidy) (call : Call) : (s.conclude call).2.Ordered := by
  cases call with
  | tryWrite bytes =>
    change (s.tryWrite bytes).2.Ordered
    obtain ⟨hsame, -⟩ | ⟨-, -, hasked⟩ := ht.tryWrite_cases bytes
    · rwa [hsame]
    · rw [hasked]
      exact h.kept rfl rfl rfl
  | tryRead length =>
    change (s.tryRead length).2.Ordered
    obtain ⟨error, hsame⟩ | ⟨k, -, htaken⟩ | ⟨-, maximum, hasked⟩ := ht.tryRead_cases length
    · rwa [hsame]
    · rw [htaken]
      exact h.kept rfl rfl rfl
    · rw [hasked]
      exact h.kept rfl rfl rfl
  | tryRecover =>
    change s.tryRecover.2.Ordered
    rwa [ht.recover]
  | openStatus | snapshot | retire => exact h
  | tryShutdown =>
    change s.tryShutdown.2.Ordered
    unfold tryShutdown
    split_ifs
    · exact h
    · exact h.join
  | drop => exact h.join.kept rfl rfl rfl

theorem Ordered.begin (h : s.Ordered) (call : Call) : (s.begin call).Ordered := by
  unfold Session.begin
  split_ifs with hhome
  · cases call <;> exact h.standing (.inl rfl)
  · exact h

theorem Ordered.advance (h : s.Ordered) (ht : s.Tidy) : s.advance.Ordered := by
  unfold Session.advance
  cases hstand : s.stand with
  | home => exact h
  | retiring call =>
    dsimp only
    split_ifs
    · exact h.fence.retired call
    · exact h.fence.standing (.inl rfl)
  | hinting call => exact h.hinted.retired call
  | draining call => exact h.receive.standing (.inl rfl)
  | noticing call => exact h.noticeFinished.standing (.inl rfl)
  | concluding call => exact (h.conclude ht call).standing (.inr ⟨_, _, rfl⟩)

/-- What holds in every state of a session. -/
structure Faithful (s : Session) : Prop extends Tidy s, Account s, Ordered s

theorem faithful_stable : Stable step Faithful := by
  intro s event ⟨ht, ha, ho⟩
  refine ⟨ht.step event, ha.step ht event, ?_⟩
  cases event with
  | call call => exact ho.begin call
  | owner => exact ho.advance ht
  | worker move =>
    change (s.work move).Ordered
    obtain hsame | hworked := s.work_cases move
    · rwa [hsame]
    · exact ho.worked ha hworked

theorem faithful_after (retry : OpenRetryPolicy) (events : List Event) : (after step (spawned retry) events).Faithful :=
  faithful_stable.after ⟨tidy_spawned retry, account_spawned retry, ordered_spawned retry⟩ events

theorem Faithful.not_refused (h : s.Faithful) (request : Request) : .refused request ∉ s.trace := fun hmem => by
  obtain ⟨pre, post, htrace⟩ := List.append_of_mem hmem
  exact h.order pre _ post htrace

theorem Faithful.frames (h : s.Faithful) : s.total Happening.frames <+: s.total Happening.admitted :=
  h.begun.elim (fun heq => ⟨_, heq⟩) fun hlost => hlost.1

theorem Faithful.given (h : s.Faithful) : s.total Happening.given <+: (s.total Happening.frames).flatten :=
  h.written.elim (fun heq => ⟨_, heq⟩) fun hlost => hlost.1

/-- An owner that knows of no fault and waits for nothing has given away all that was admitted. -/
theorem Faithful.complete (h : s.Faithful) (fault : s.owner.fault = none) (pending : s.owner.pending = false) :
    s.total Happening.given = (s.total Happening.admitted).flatten := by
  have hspoiled : ¬ s.Spoiled := by
    rintro (hfaulty | ⟨hpending, -⟩)
    · simp [Faulty, fault] at hfaulty
    · cases pending.symm.trans hpending
  have hup : s.upstream = 0 := by
    by_contra hne
    obtain hfaulty | ⟨hpending, -⟩ := h.asked hne
    · simp [Faulty, fault] at hfaulty
    · cases pending.symm.trans hpending
  obtain ⟨hdata, hasks⟩ : s.requests.any Request.isData = false ∧ s.worker.phase.asks = false := by
    simpa [upstream] using hup
  have hbegun := h.begun.resolve_right fun hlost => hspoiled hlost.2.2
  have hwritten := h.written.resolve_right fun hlost => hspoiled (h.failed hlost.2.2).1
  rw [unbegun_of_alone hdata, Phase.unbegun_eq_nil hasks, List.append_nil] at hbegun
  rw [Phase.unwritten_eq_nil hasks, List.append_nil, hbegun] at hwritten
  exact hwritten

/-- In every state of every session: at most one data request is under way and none met a full channel;
the device took the admitted byte strings in order, all of them but the last completely, and all when the owner
knows of no fault and waits for nothing; a request starts on the device after the ones before it were served and
none failed; what was handed out is a prefix of what was kept of the reads; and a stop lets at most the request
start that had passed the stop flag before. -/
theorem session_faithful (retry : OpenRetryPolicy) (events : List Event) :
    let s := after step (spawned retry) events
    s.outstanding ≤ 1 ∧ (∀ request, .refused request ∉ s.trace) ∧
      (s.total Happening.frames <+: s.total Happening.admitted ∧
        s.total Happening.given <+: (s.total Happening.frames).flatten ∧
        (s.total Happening.admitted).dropLast.flatten <+: s.total Happening.given ∧
        (s.owner.fault = none → s.owner.pending = false →
          s.total Happening.given = (s.total Happening.admitted).flatten)) ∧
      (s.total Happening.handed <+: s.total Happening.kept ∧
        (s.owner.fault = none → s.total Happening.handed ++ s.owner.received ++ s.coming = s.total Happening.kept)) ∧
      (∀ earlier request later, s.trace = earlier ++ .began request :: later →
        earlier.flatMap Happening.given = (earlier.flatMap Happening.frames).flatten ∧ ∀ h ∈ earlier, h.fails = false) ∧
      ∀ earlier later, s.trace = earlier ++ .stopRequested :: later →
        later.flatMap Happening.begins = [] ∨
          ∃ request, later.flatMap Happening.begins = [request] ∧ .passed request ∈ earlier := by
  intro s
  have h : s.Faithful := faithful_after retry events
  refine ⟨h.one, h.not_refused, ⟨h.frames, h.given, h.whole, h.complete⟩, ⟨h.handed, h.received⟩,
    fun earlier request later htrace => (h.order earlier _ later htrace).2, fun earlier later htrace => ?_⟩
  exact Happening.begins_of_proper (htrace ▸ h.order)

/-! ### Runs -/

def call (c : Call) : List Event := .call c :: List.replicate 3 .owner

/-- The worker opens the device and waits for requests. -/
def openRun : List Event :=
  [.worker .step, .worker (.attempted (.ok ()) 0 0), .worker .step, .worker .step, .worker .step]

/-- The stop comes when the worker has looked at the flag and not yet called the device. -/
def overtakenRun : List Event :=
  openRun ++ call (.tryWrite [1]) ++ [.worker .step, .worker .step, .call .tryShutdown, .owner, .worker .step]

/-- A read that returns `bytes`. -/
def readRun (bytes : List UInt8) : List Event :=
  call (.tryRead 65) ++ [.worker .step, .worker .step, .worker .step, .worker (.read (.ok bytes)), .worker .step,
    .worker .step] ++ call (.tryRead 65)

/-- The device returns one byte more than the buffer of the adapter holds. -/
def overlongRun : List Event := openRun ++ readRun (List.replicate 66 0) ++ readRun [7]

def sessionAfter (events : List Event) : Session := after step (spawned (.singleAttempt 0)) events

theorem session_overtaken : (sessionAfter overtakenRun).trace.drop 2 = [.stopRequested, .began (.write [1])] ∧
    (sessionAfter overtakenRun).stop = true ∧
    ¬ (sessionAfter overlongRun).total Happening.handed <+: (sessionAfter overlongRun).total Happening.returns := by
  decide +kernel

end Session

end LabRuntime.Com
