import LabRuntime.Com.Steps

/-! The bytes of a session: what the owner handed over against what the device was given, and what
the device returned against what the owner handed out. -/

namespace LabRuntime.Com

open History

variable {α : Type}

namespace Happening

/-- The byte string that a write was accepted for. -/
def admitted : Happening → List (List UInt8)
  | .returned (.tryWrite bytes) (.wrote (.ok (_ + 1))) => [bytes]
  | _ => []

/-- The byte string of a write that starts on the device. -/
def frames : Happening → List (List UInt8)
  | .began (.write bytes) => [bytes]
  | _ => []

/-- The bytes that the device took. -/
def given : Happening → List UInt8
  | .wroteOnce offered (.ok written) => offered.take written
  | _ => []

/-- The bytes that a read handed out. -/
def handed : Happening → List UInt8
  | .returned (.tryRead _) (.read (.ok bytes)) => bytes
  | _ => []

/-- The bytes that the device returned, up to the bound of the internal buffer. -/
def kept : Happening → List UInt8
  | .readOnce _ (.ok bytes) => bytes.take maxInternalReadBytes
  | _ => []

/-- The happening has no part in the accounts. -/
structure Quiet (h : Happening) : Prop where
  admitted : h.admitted = []
  frames : h.frames = []
  given : h.given = []
  handed : h.handed = []
  kept : h.kept = []
  sound : h.fails = false

end Happening

def Request.frames : Request → List (List UInt8)
  | .write bytes => [bytes]
  | _ => []

def Completion.coming : Completion → List UInt8
  | .read bytes => bytes.take maxInternalReadBytes
  | _ => []

namespace Phase

/-- The frame of a request that did not start. -/
def unbegun : Phase → List (List UInt8)
  | .taken request | .checked request => request.frames
  | _ => []

/-- The rest of the frame that is being written. -/
def unwritten : Phase → List UInt8
  | .writing bytes offset => bytes.drop offset
  | _ => []

/-- Bytes on their way back. -/
def coming : Phase → List UInt8
  | .answering c => c.coming
  | _ => []

/-- A data request that the device has not done with. -/
def ahead : Phase → Bool
  | .taken request | .checked request => request.isData
  | .writing _ _ | .reading _ => true
  | _ => false

theorem asks_of_ahead {phase : Phase} (h : phase.ahead = true) : phase.asks = true := by
  cases phase <;> first | exact h | rfl

theorem ended_iff {phase : Phase} : phase.ended = true ↔ phase = .returning ∨ phase = .finished := by
  cases phase <;> simp [ended]

theorem of_calls {phase : Phase} (h : phase.calls = true) :
    phase.asks = true ∧ phase.ahead = true ∧ phase.unbegun = [] ∧ phase.coming = [] := by
  cases phase <;> first | exact ⟨rfl, rfl, rfl, rfl⟩ | cases h

theorem unbegun_eq_nil {phase : Phase} (h : phase.asks = false) : phase.unbegun = [] := by
  cases phase with
  | taken request | checked request =>
    cases request with
    | write | read => cases h
    | stop => rfl
  | _ => rfl

theorem unwritten_eq_nil {phase : Phase} (h : phase.asks = false) : phase.unwritten = [] := by
  cases phase <;> first | rfl | cases h

end Phase

namespace Session

variable {s s' : Session}

/-- Over the trace: what the given part of each happening adds up to. -/
def total (s : Session) (part : Happening → List α) : List α := s.trace.flatMap part

def unbegun (s : Session) : List (List UInt8) := s.worker.phase.unbegun ++ s.requests.toList.flatMap Request.frames

def coming (s : Session) : List UInt8 := s.completions.toList.flatMap Completion.coming ++ s.worker.phase.coming

def ahead (s : Session) : Bool := s.worker.phase.ahead || s.requests.any Request.isData

/-- The device failed. -/
def Failed (s : Session) : Prop := ∃ h ∈ s.trace, h.fails = true

/-- The owner has a fault, or is about to hear of one before it asks again. -/
def Spoiled (s : Session) : Prop :=
  s.Faulty ∨ s.owner.pending = true ∧ ((∃ error, s.worker.phase = .answering (.failed error) ∧ s.completions = none) ∨
    (∃ error, s.completions = some (.failed error)) ∨ (s.worker.phase.ended = true ∧ s.completions = none))

theorem Spoiled.not_free (h : s.Spoiled) (hfree : s.Free) : False := by
  obtain hfaulty | ⟨hpending, -⟩ := h
  · simp [Faulty, hfree.fault] at hfaulty
  · cases hfree.pending.symm.trans hpending

structure Account (s : Session) : Prop where
  begun : s.total Happening.frames ++ s.unbegun = s.total Happening.admitted ∨
    (s.total Happening.frames <+: s.total Happening.admitted ∧ s.unbegun = [] ∧ s.Spoiled)
  written : s.total Happening.given ++ s.worker.phase.unwritten = (s.total Happening.frames).flatten ∨
    (s.total Happening.given <+: (s.total Happening.frames).flatten ∧ s.worker.phase.unwritten = [] ∧ s.Failed)
  whole : (s.total Happening.admitted).dropLast.flatten <+: s.total Happening.given
  failed : s.Failed → s.Spoiled ∧ s.ahead = false
  handed : s.total Happening.handed <+: s.total Happening.kept
  received : s.owner.fault = none → s.total Happening.handed ++ s.owner.received ++ s.coming = s.total Happening.kept

theorem account_spawned (retry : OpenRetryPolicy) : (spawned retry).Account := by
  refine ⟨.inl rfl, .inl rfl, List.nil_prefix, ?_, List.nil_prefix, fun _ => rfl⟩
  rintro ⟨h, hmem, -⟩
  cases hmem

/-! ### Spoiled sessions stay spoiled -/

theorem Spoiled.worked (h : s.Spoiled) (ht : s.Tidy) (hw : s.Worked s') : s'.Spoiled := by
  have howner : s'.owner = s.owner := by cases hw <;> rfl
  obtain hfaulty | ⟨hpending, hplace⟩ := h
  · exact .inl (by unfold Faulty; rwa [howner])
  · cases hstop : s.stop with
    | true => exact .inl (by unfold Faulty; rw [howner]; exact ht.stopped hstop)
    | false =>
      have hgone : s.gone = false := by
        by_contra hgone
        cases hstop.symm.trans (ht.gone (by simpa using hgone))
      refine .inr ⟨by rwa [howner], ?_⟩
      obtain ⟨error, hphase, hnone⟩ | ⟨error, hslot⟩ | ⟨hended, hnone⟩ := hplace
      · cases hw <;> simp_all [Phase.calls]
      · refine .inr (.inl ⟨error, ?_⟩)
        cases hw <;> simp_all [move, note, requestStop]
      · refine .inr (.inr ?_)
        rw [Phase.ended_iff] at hended
        obtain hphase | hphase := hended <;> cases hw <;> simp_all [move, Phase.calls, Phase.ended]

/-! ### Steps of the worker -/

theorem total_note (h : Happening) (part : Happening → List α) : (s.note h).total part = s.total part ++ part h := by
  simp [total, note]

theorem total_note_move (h : Happening) (phase : Phase) (part : Happening → List α) :
    ((s.note h).move phase).total part = s.total part ++ part h := total_note h part

/-- The trace grows by nothing that counts. -/
def Grows (s s' : Session) : Prop := s'.trace = s.trace ∨ ∃ h : Happening, h.Quiet ∧ s'.trace = s.trace ++ [h]

theorem Grows.total (h : s.Grows s') {part : Happening → List α} (quiet : ∀ h : Happening, h.Quiet → part h = []) :
    s'.total part = s.total part := by
  obtain htrace | ⟨e, he, htrace⟩ := h
  · unfold Session.total
    rw [htrace]
  · simp [Session.total, htrace, quiet e he]

theorem Grows.failed (h : s.Grows s') : s'.Failed ↔ s.Failed := by
  obtain htrace | ⟨e, he, htrace⟩ := h
  · unfold Failed
    rw [htrace]
  · simp [Failed, htrace, he.sound]

/-- A step that hands no bytes over, or drops a request that will not be served. -/
theorem Account.kept (h : s.Account) (grows : s.Grows s') (spoiled : s.Spoiled → s'.Spoiled)
    (unbegun : s'.unbegun = s.unbegun ∨ (s'.unbegun = [] ∧ s'.Spoiled))
    (unwritten : s'.worker.phase.unwritten = s.worker.phase.unwritten) (ahead : s.ahead = false → s'.ahead = false)
    (received : s'.owner.fault = none →
      s.owner.fault = none ∧ s'.owner.received ++ s'.coming = s.owner.received ++ s.coming) : s'.Account := by
  have hframes := grows.total fun _ he => he.frames
  have hadmitted := grows.total fun _ he => he.admitted
  have hgiven := grows.total fun _ he => he.given
  have hhanded := grows.total fun _ he => he.handed
  have hkept := grows.total fun _ he => he.kept
  refine ⟨?_, ?_, ?_, fun hfailed => ?_, ?_, fun hfault => ?_⟩
  · rw [hframes, hadmitted]
    obtain hsame | ⟨hnone, hspoiled⟩ := unbegun
    · rw [hsame]
      exact h.begun.imp_right fun hlost => ⟨hlost.1, hlost.2.1, spoiled hlost.2.2⟩
    · refine .inr ⟨?_, hnone, hspoiled⟩
      obtain heq | ⟨hle, -⟩ := h.begun
      · exact ⟨_, heq⟩
      · exact hle
  · rw [hgiven, hframes, unwritten, grows.failed]
    exact h.written
  · rw [hadmitted, hgiven]
    exact h.whole
  · obtain ⟨hspoiled, hahead⟩ := h.failed (grows.failed.1 hfailed)
    exact ⟨spoiled hspoiled, ahead hahead⟩
  · rw [hhanded, hkept]
    exact h.handed
  · obtain ⟨hfault, hsame⟩ := received hfault
    rw [hhanded, hkept, List.append_assoc, hsame, ← List.append_assoc]
    exact h.received hfault

/-- The worker moves no bytes, or loses some that nobody will ask for. -/
theorem Account.carried (h : s.Account) (grows : s.Grows s') (owner : s'.owner = s.owner) (spoiled : s.Spoiled → s'.Spoiled)
    (unbegun : s'.unbegun = s.unbegun ∨ (s'.unbegun = [] ∧ s'.Spoiled))
    (unwritten : s'.worker.phase.unwritten = s.worker.phase.unwritten) (ahead : s.ahead = false → s'.ahead = false)
    (coming : s'.coming = s.coming ∨ s.Faulty) : s'.Account := by
  refine h.kept grows spoiled unbegun unwritten ahead fun hfault => ?_
  rw [owner] at hfault ⊢
  obtain hsame | hfaulty := coming
  · exact ⟨hfault, by rw [hsame]⟩
  · simp [Faulty, hfault] at hfaulty

theorem quiet_stopRequested : Happening.stopRequested.Quiet := ⟨rfl, rfl, rfl, rfl, rfl, rfl⟩

theorem quiet_passed (request : Request) : (Happening.passed request).Quiet := ⟨rfl, rfl, rfl, rfl, rfl, rfl⟩

/-- With a data request on the device none is in the channel. -/
theorem Tidy.alone (h : s.Tidy) (hasks : s.worker.phase.asks = true) : s.requests.any Request.isData = false := by
  have hone := h.outstanding_le
  unfold upstream at hone
  rw [hasks] at hone
  by_contra hdata
  rw [Bool.not_eq_false] at hdata
  rw [hdata] at hone
  simp at hone

theorem unbegun_of_alone (h : s.requests.any Request.isData = false) : s.unbegun = s.worker.phase.unbegun := by
  unfold unbegun
  cases hslot : s.requests with
  | none => simp
  | some request =>
    rw [hslot] at h
    cases request with
    | write | read => cases h
    | stop => simp [Request.frames]

/-- The device fails at the request it serves. -/
theorem Account.fails (h : s.Account) (ht : s.Tidy) (happening : Happening) (next : Phase)
    (calls : s.worker.phase.calls = true) (fails : happening.fails = true)
    (other : happening.admitted = [] ∧ happening.frames = [] ∧ happening.handed = [] ∧ happening.kept = [])
    (given : happening.given <+: s.worker.phase.unwritten)
    (broken : (∃ error, next = .answering (.failed error)) ∨ next = .returning) :
    ((s.note happening).move next).Account := by
  obtain ⟨hadmitted, hframes, hhanded, hkept⟩ := other
  obtain ⟨hasks, hphase, hnone, hcoming⟩ := Phase.of_calls calls
  have halone := ht.alone hasks
  have hsound : ¬ s.Failed := fun hfailed => by
    have hahead := (h.failed hfailed).2
    simp [ahead, hphase] at hahead
  have hnext : next.unbegun = [] ∧ next.unwritten = [] ∧ next.coming = [] ∧ next.ahead = false := by
    obtain ⟨error, rfl⟩ | rfl := broken <;> exact ⟨rfl, rfl, rfl, rfl⟩
  have hfailed : ((s.note happening).move next).Failed := ⟨happening, by simp [note, move], fails⟩
  have hunbegun : s.unbegun = [] := (unbegun_of_alone halone).trans hnone
  have hunbegun' : ((s.note happening).move next).unbegun = [] :=
    (unbegun_of_alone (s := (s.note happening).move next) halone).trans hnext.1
  have hspoiled : ((s.note happening).move next).Spoiled := by
    refine (ht.busy (upstream_of_asks hasks)).imp_right fun hbusy => ⟨hbusy.1, ?_⟩
    have hslot := hbusy.2.2
    obtain ⟨error, rfl⟩ | rfl := broken
    · exact .inl ⟨error, rfl, hslot⟩
    · exact .inr (.inr ⟨rfl, hslot⟩)
  have hwritten := h.written.resolve_right fun hlost => hsound hlost.2.2
  refine ⟨?_, .inr ⟨?_, hnext.2.1, hfailed⟩, ?_, fun _ => ⟨hspoiled, ?_⟩, ?_, fun hfault => ?_⟩
  · rw [total_note_move, total_note_move, hframes, hadmitted, List.append_nil, List.append_nil, hunbegun', ← hunbegun]
    exact h.begun.imp_right fun hlost => ⟨hlost.1, rfl, hspoiled⟩
  · rw [total_note_move, total_note_move, hframes, List.append_nil, ← hwritten]
    exact (List.prefix_append_right_inj _).2 given
  · rw [total_note_move, total_note_move, hadmitted, List.append_nil]
    exact h.whole.trans (List.prefix_append _ _)
  · exact Bool.or_eq_false_iff.2 ⟨hnext.2.2.2, halone⟩
  · rw [total_note_move, total_note_move, hhanded, hkept, List.append_nil, List.append_nil]
    exact h.handed
  · have hsame : ((s.note happening).move next).coming = s.coming :=
      congrArg (s.completions.toList.flatMap Completion.coming ++ ·) (hnext.2.2.1.trans hcoming.symm)
    rw [total_note_move, total_note_move, hhanded, hkept, List.append_nil, List.append_nil, hsame]
    exact h.received hfault

theorem Account.sound (h : s.Account) (ahead : s.worker.phase.ahead = true) : ¬ s.Failed := fun hfailed => by
  have hahead := (h.failed hfailed).2
  simp [Session.ahead, ahead] at hahead

/-- A write starts on the device when every frame before it is complete. -/
theorem Account.complete (h : s.Account) {request : Request} (phase : s.worker.phase = .checked request)
    (data : request.isData = true) : s.total Happening.given = (s.total Happening.frames).flatten := by
  obtain hwritten | ⟨-, -, hfailed⟩ := h.written
  · rwa [phase, show (Phase.checked request).unwritten = [] from rfl, List.append_nil] at hwritten
  · exact absurd hfailed (h.sound (by rw [phase]; exact data))

theorem frame_unwritten (bytes : List UInt8) (offset : ℕ) : (frame bytes offset).unwritten = bytes.drop offset := by
  unfold frame
  split_ifs with hoffset
  · rfl
  · exact (List.drop_eq_nil_of_le (not_lt.1 hoffset)).symm

theorem frame_plain (bytes : List UInt8) (offset : ℕ) : (frame bytes offset).unbegun = [] ∧ (frame bytes offset).coming = [] := by
  unfold frame
  split_ifs <;> exact ⟨rfl, rfl⟩

/-- The device is at work without failing. -/
theorem Account.served (h : s.Account) {e : Happening} {next : Phase} (ahead : s.worker.phase.ahead = true)
    (fails : e.fails = false) (admitted : e.admitted = []) (handed : e.handed = [])
    (begun : s.total Happening.frames ++ e.frames ++ ((s.note e).move next).unbegun = s.total Happening.admitted ∨
      (s.total Happening.frames ++ e.frames <+: s.total Happening.admitted ∧ ((s.note e).move next).unbegun = [] ∧
        ((s.note e).move next).Spoiled))
    (written : s.total Happening.given ++ e.given ++ next.unwritten = (s.total Happening.frames ++ e.frames).flatten)
    (coming : ((s.note e).move next).coming = s.coming ++ e.kept) : ((s.note e).move next).Account := by
  have hsound := h.sound ahead
  refine ⟨?_, .inl ?_, ?_, fun hfailed => ?_, ?_, fun hfault => ?_⟩
  · rw [total_note_move, total_note_move, admitted, List.append_nil]
    exact begun
  · rw [total_note_move, total_note_move]
    exact written
  · rw [total_note_move, total_note_move, admitted, List.append_nil]
    exact h.whole.trans (List.prefix_append _ _)
  · obtain ⟨e', hmem, hfails⟩ := hfailed
    obtain hmem | hmem := List.mem_append.1 hmem
    · exact absurd ⟨e', hmem, hfails⟩ hsound
    · rw [List.mem_singleton.1 hmem, fails] at hfails
      cases hfails
  · rw [total_note_move, total_note_move, handed, List.append_nil]
    exact h.handed.trans (List.prefix_append _ _)
  · rw [total_note_move, total_note_move, handed, List.append_nil, coming, ← List.append_assoc]
    exact congrArg (· ++ e.kept) (h.received hfault)

theorem Account.beganWrite (h : s.Account) (ht : s.Tidy) {bytes : List UInt8}
    (phase : s.worker.phase = .checked (.write bytes)) :
    ((s.note (.began (.write bytes))).move (frame bytes 0)).Account := by
  have halone := ht.alone (by rw [phase]; rfl)
  have hunbegun : s.unbegun = [bytes] := by rw [unbegun_of_alone halone, phase]; rfl
  have hunbegun' : ((s.note (.began (.write bytes))).move (frame bytes 0)).unbegun = [] :=
    (unbegun_of_alone (s := (s.note (.began (.write bytes))).move (frame bytes 0)) halone).trans (frame_plain bytes 0).1
  have hbegun := h.begun.resolve_right fun hlost => by
    rw [hunbegun] at hlost
    cases hlost.2.1
  refine h.served (by rw [phase]; rfl) rfl rfl rfl (.inl ?_) ?_ ?_
  · rw [hunbegun', ← hbegun, hunbegun, List.append_nil]
    rfl
  · rw [frame_unwritten, h.complete phase rfl, List.flatten_append]
    simp [Happening.given, Happening.frames]
  · unfold Session.coming
    rw [phase]
    exact (congrArg (s.completions.toList.flatMap Completion.coming ++ ·) (frame_plain bytes 0).2).trans
      (List.append_nil _).symm

theorem Account.wrote (h : s.Account) (ht : s.Tidy) {bytes : List UInt8} {offset written : ℕ}
    (phase : s.worker.phase = .writing bytes offset) (positive : 0 < written) (within : written ≤ bytes.length - offset) :
    ((s.note (.wroteOnce (bytes.drop offset) (.ok written))).move (frame bytes (offset + written))).Account := by
  have hahead : s.worker.phase.ahead = true := by rw [phase]; rfl
  have halone := ht.alone (by rw [phase]; rfl)
  have hunbegun : s.unbegun = [] := by rw [unbegun_of_alone halone, phase]; rfl
  have hsame : s.worker.phase.coming = [] := by rw [phase]; rfl
  have hwritten := h.written.resolve_right fun hlost => h.sound hahead hlost.2.2
  have hunbegun' : ((s.note (.wroteOnce (bytes.drop offset) (.ok written))).move (frame bytes (offset + written))).unbegun = [] :=
    (unbegun_of_alone (s := (s.note (.wroteOnce _ _)).move _) halone).trans (frame_plain _ _).1
  have hbegun := h.begun
  rw [hunbegun] at hbegun
  refine h.served hahead ?_ rfl rfl ?_ ?_ ?_
  · simp [Happening.fails]
    omega
  · rw [hunbegun', show (Happening.wroteOnce (bytes.drop offset) (.ok written)).frames = [] from rfl, List.append_nil]
    exact hbegun.imp_right fun hlost =>
      ⟨(List.append_nil _).symm ▸ hlost.1, rfl, hlost.2.2.worked ht (.wrote bytes offset written phase positive within)⟩
  · rw [phase, show (Phase.writing bytes offset).unwritten = bytes.drop offset from rfl] at hwritten
    rw [frame_unwritten, List.append_assoc, ← List.drop_drop]
    simpa [Happening.given, Happening.frames] using hwritten
  · rw [show (Happening.wroteOnce (bytes.drop offset) (.ok written)).kept = [] from rfl, List.append_nil]
    exact congrArg (s.completions.toList.flatMap Completion.coming ++ ·) ((frame_plain _ _).2.trans hsame.symm)

/-- A read starts on the device, or returns. -/
theorem Account.reads (h : s.Account) (ht : s.Tidy) {e : Happening} {next : Phase} (ahead : s.worker.phase.ahead = true)
    (plain : s.worker.phase.unbegun = [] ∧ s.worker.phase.unwritten = [] ∧ s.worker.phase.coming = [])
    (next_plain : next.unbegun = [] ∧ next.unwritten = []) (sound : e.fails = false)
    (other : e.admitted = [] ∧ e.frames = [] ∧ e.given = [] ∧ e.handed = [])
    (coming : next.coming = e.kept) (hw : s.Worked ((s.note e).move next)) : ((s.note e).move next).Account := by
  obtain ⟨hadmitted, hframes, hgiven, hhanded⟩ := other
  have halone := ht.alone (Phase.asks_of_ahead ahead)
  have hunbegun : s.unbegun = [] := (unbegun_of_alone halone).trans plain.1
  have hunbegun' : ((s.note e).move next).unbegun = [] :=
    (unbegun_of_alone (s := (s.note e).move next) halone).trans next_plain.1
  have hbegun := h.begun
  have hwritten := h.written.resolve_right fun hlost => h.sound ahead hlost.2.2
  rw [hunbegun] at hbegun
  rw [plain.2.1] at hwritten
  refine h.served ahead sound hadmitted hhanded ?_ ?_ ?_
  · rw [hframes, hunbegun', List.append_nil]
    exact hbegun.imp_right fun hlost => ⟨(List.append_nil _).symm ▸ hlost.1, rfl, hlost.2.2.worked ht hw⟩
  · rwa [hgiven, hframes, next_plain.2, List.append_nil (s.total _), List.append_nil (s.total Happening.frames)]
  · unfold Session.coming
    rw [plain.2.2, List.append_nil]
    exact congrArg (s.completions.toList.flatMap Completion.coming ++ ·) coming

/-- What the worker drops it does not owe any more, and a stop excuses it. -/
theorem Account.excused (h : s.Account) (ht : s.Tidy) (stop : s.stop = true) (next : Phase)
    (plain : next.unbegun = [] ∧ next.unwritten = [] ∧ next.ahead = false)
    (unwritten : s.worker.phase.unwritten = []) (spoiled : s.Spoiled → (s.move next).Spoiled) : (s.move next).Account := by
  have hfaulty := ht.stopped stop
  refine h.carried (.inl rfl) rfl spoiled ?_ (plain.2.1.trans unwritten.symm) (fun hahead => ?_) (.inr hfaulty)
  · cases hasks : s.worker.phase.asks with
    | true =>
      exact .inr ⟨(unbegun_of_alone (s := s.move next) (ht.alone hasks)).trans plain.1, .inl hfaulty⟩
    | false =>
      refine .inl (congrArg (· ++ s.requests.toList.flatMap Request.frames) ?_)
      exact plain.1.trans (Phase.unbegun_eq_nil hasks).symm
  · exact Bool.or_eq_false_iff.2 ⟨plain.2.2, (Bool.or_eq_false_iff.1 hahead).2⟩

theorem Account.worked (h : s.Account) (ht : s.Tidy) (hw : s.Worked s') : s'.Account := by
  have hspoiled : s.Spoiled → s'.Spoiled := fun hs => hs.worked ht hw
  cases hw with
  | stopped phase stop =>
    refine h.excused ht stop _ ⟨rfl, rfl, rfl⟩ ?_ hspoiled
    cases hphase : s.worker.phase <;> first | rfl | (rw [hphase] at phase; cases phase)
  | attempt phase | obtained phase | retried error retryAt phase | openFailed error phase | expired error retryAt phase
    | again error retryAt phase | ready phase | openPanicked phase | finished phase | hungUp phase =>
    exact h.carried (.inl rfl) rfl hspoiled (.inl (by simp [unbegun, phase, Phase.unbegun, move])) (by rw [phase]; rfl)
      (by simp [ahead, phase, Phase.ahead, move]) (.inl (by simp [coming, phase, Phase.coming, move]))
  | reported phase room =>
    exact h.carried (.inl rfl) rfl hspoiled (.inl (by simp [unbegun, phase, Phase.unbegun, move, put])) (by rw [phase]; rfl)
      (by simp [ahead, phase, Phase.ahead, move, put])
      (.inl (by simp [coming, phase, room, Phase.coming, move, put, Completion.coming]))
  | unheard phase gone =>
    refine h.excused ht (ht.gone gone) _ ⟨rfl, rfl, rfl⟩ ?_ hspoiled
    obtain hphase | ⟨c, hphase⟩ | ⟨c, hphase⟩ := phase <;> (rw [hphase]; rfl)
  | entered phase =>
    obtain hphase | hphase := phase <;>
      exact h.carried (.inl rfl) rfl hspoiled (.inl (by simp [unbegun, hphase, Phase.unbegun, move])) (by rw [hphase]; rfl)
        (by simp [ahead, hphase, Phase.ahead, move]) (.inl (by simp [coming, hphase, Phase.coming, move]))
  | received request phase slot =>
    exact h.carried (.inl rfl) rfl hspoiled (.inl (by simp [unbegun, phase, slot, Phase.unbegun, move])) (by rw [phase]; rfl)
      (by simp [ahead, phase, slot, Phase.ahead, move]) (.inl (by simp [coming, phase, Phase.coming, move]))
  | checkedStop phase =>
    exact h.carried (.inl rfl) rfl hspoiled (.inl (by simp [unbegun, phase, Phase.unbegun, move])) (by rw [phase]; rfl)
      (by simp [ahead, phase, Phase.ahead, move]) (.inl (by simp [coming, phase, Phase.coming, move]))
  | passed request phase data running =>
    exact h.carried (.inr ⟨_, quiet_passed request, rfl⟩) rfl hspoiled (.inl (by simp [unbegun, phase, Phase.unbegun, move, note]))
      (by rw [phase]; rfl) (by simp [ahead, phase, Phase.ahead, move, note]) (.inl (by simp [coming, phase, Phase.coming, move, note]))
  | stopTaken phase =>
    exact h.carried (.inr ⟨_, quiet_stopRequested, rfl⟩) rfl hspoiled
      (.inl (by simp [unbegun, phase, Phase.unbegun, move, note, requestStop, Request.frames])) (by rw [phase]; rfl)
      (by simp [ahead, phase, Phase.ahead, move, note, requestStop]) (.inl (by simp [coming, phase, Phase.coming, move, note, requestStop]))
  | beganWrite bytes phase => exact h.beganWrite ht phase
  | beganRead maximum phase =>
    have plain : s.worker.phase.unbegun = [] ∧ s.worker.phase.unwritten = [] ∧ s.worker.phase.coming = [] := by
      rw [phase]
      exact ⟨rfl, rfl, rfl⟩
    exact h.reads ht (by rw [phase]; rfl) plain ⟨rfl, rfl⟩ rfl ⟨rfl, rfl, rfl, rfl⟩ rfl (.beganRead maximum phase)
  | wrote bytes offset written phase positive within => exact h.wrote ht phase positive within
  | writeFailed bytes offset result error phase fails =>
    refine h.fails ht _ _ (by rw [phase]; rfl) fails ⟨rfl, rfl, rfl, rfl⟩ ?_ (.inl ⟨error, rfl⟩)
    rw [phase]
    cases result with
    | error => exact List.nil_prefix
    | ok written => exact List.take_prefix _ _
  | read maximum bytes phase =>
    have plain : s.worker.phase.unbegun = [] ∧ s.worker.phase.unwritten = [] ∧ s.worker.phase.coming = [] := by
      rw [phase]
      exact ⟨rfl, rfl, rfl⟩
    exact h.reads ht (by rw [phase]; rfl) plain ⟨rfl, rfl⟩ rfl ⟨rfl, rfl, rfl, rfl⟩ rfl (.read maximum bytes phase)
  | readFailed maximum error phase =>
    exact h.fails ht _ _ (by rw [phase]; rfl) rfl ⟨rfl, rfl, rfl, rfl⟩ List.nil_prefix (.inl ⟨error, rfl⟩)
  | answered c phase room =>
    exact h.carried (.inl rfl) rfl hspoiled (.inl (by simp [unbegun, phase, Phase.unbegun, move, put])) (by rw [phase]; rfl)
      (by simp [ahead, phase, Phase.ahead, move, put]) (.inl (by simp [coming, phase, room, Phase.coming, move, put]))
  | announced c phase room =>
    have hcoming : c.coming = [] := by
      have hsound := ht.sound
      rw [phase] at hsound
      cases c <;> first | rfl | cases hsound
    exact h.carried (.inl rfl) rfl hspoiled (.inl (by simp [unbegun, phase, Phase.unbegun, move, put])) (by rw [phase]; rfl)
      (by simp [ahead, phase, Phase.ahead, move, put]) (.inl (by simp [coming, phase, room, Phase.coming, move, put, hcoming]))
  | panicked phase => exact h.fails ht _ _ phase rfl ⟨rfl, rfl, rfl, rfl⟩ List.nil_prefix (.inr rfl)
  | deviceDropped phase | completionsDropped phase =>
    exact h.carried (.inl rfl) rfl hspoiled (.inl rfl) rfl id (.inl rfl)
  | requestsDropped phase =>
    refine h.carried (.inl rfl) rfl hspoiled ?_ rfl (by simp +contextual [ahead]) (.inl rfl)
    have hnone : s.worker.phase.unbegun = [] := by rw [phase]; rfl
    cases hdata : s.requests.any Request.isData with
    | false => exact .inl (by rw [unbegun_of_alone hdata, hnone]; simp [unbegun, hnone])
    | true =>
      refine .inr ⟨by simp [unbegun, hnone], (ht.busy (by simp [upstream, hdata])).imp_right fun hbusy => ?_⟩
      obtain ⟨hpending, -, hslot⟩ := hbusy
      exact ⟨hpending, .inr (.inr ⟨by rw [phase]; rfl, hslot⟩)⟩

/-! ### Steps of the owner -/

theorem settle_fault {o : ComTransport} (r : TryRecv) (h : o.fault.isSome = true) : (o.settle r).fault.isSome = true := by
  unfold ComTransport.settle
  split <;> (try split_ifs) <;> simp [h]

theorem Tidy.closing (h : s.Tidy) (state : s.owner.state = .closing ∨ s.owner.state = .closed) : s.Faulty :=
  h.stopped (h.stopping (.inr (.inr (.inr (state.imp_right .inl)))))

theorem Spoiled.receive (h : s.Spoiled) (ht : s.Tidy) : s.receive.Spoiled := by
  by_cases hfaulty : s.Faulty
  · refine .inl ?_
    cases hslot : s.completions with
    | none => rw [receive_none hslot]; exact settle_fault _ hfaulty
    | some c => rw [receive_some hslot]; exact settle_fault _ hfaulty
  · have hrest := h
    obtain hf | ⟨hpending, hplace⟩ := h
    · exact absurd hf hfaulty
    · have hstate : ¬ (s.owner.state = .closing ∨ s.owner.state = .closed) := fun hstate => hfaulty (ht.closing hstate)
      cases hslot : s.completions with
      | none =>
        rw [receive_none hslot]
        split_ifs
        · exact hrest
        · refine .inl ?_
          simp [Faulty, ComTransport.settle, hstate]
      | some c =>
        obtain ⟨_, _, hnone⟩ | ⟨error, hfailed⟩ | ⟨_, hnone⟩ := hplace
        · cases hslot.symm.trans hnone
        · rw [receive_some hfailed]
          refine .inl ?_
          simp only [Faulty, ComTransport.settle]
          split_ifs <;> rfl
        · cases hslot.symm.trans hnone

theorem Account.receive (h : s.Account) (ht : s.Tidy) : s.receive.Account := by
  have hspoiled : s.Spoiled → s.receive.Spoiled := fun hs => hs.receive ht
  have hsound : s.owner.fault = none → ¬ s.Faulty := fun hfault => by simp [Faulty, hfault]
  cases hslot : s.completions with
  | none =>
    rw [receive_none hslot] at hspoiled ⊢
    refine h.kept (.inl rfl) hspoiled (.inl rfl) rfl id fun hfault => ?_
    have hfault' : s.owner.fault = none := by
      by_contra hne
      have hsome := settle_fault (if s.worker.completionsHeld then .empty else .disconnected) (Option.isSome_iff_ne_none.2 hne)
      rw [show (s.owner.settle _).fault = none from hfault] at hsome
      cases hsome
    refine ⟨hfault', congrArg (· ++ s.coming) ?_⟩
    split_ifs
    · rfl
    · simp only [ComTransport.settle]
      split_ifs <;> rfl
  | some c =>
    rw [receive_some hslot] at hspoiled ⊢
    refine h.kept (.inl rfl) hspoiled (.inl rfl) rfl id fun hfault => ?_
    have hfault' : s.owner.fault = none := by
      by_contra hne
      have hsome := settle_fault (.completion c) (Option.isSome_iff_ne_none.2 hne)
      rw [show (s.owner.settle _).fault = none from hfault] at hsome
      cases hsome
    refine ⟨hfault', ?_⟩
    have hstate : s.owner.state ≠ .closing := fun hstate => hsound hfault' (ht.closing (.inl hstate))
    cases c with
    | failed error =>
      simp only [ComTransport.settle] at hfault
      split_ifs at hfault
    | _ => simp [ComTransport.settle, hstate, coming, hslot, Completion.coming]

theorem Account.noticeFinished (h : s.Account) (ht : s.Tidy) : s.noticeFinished.Account := by
  unfold Session.noticeFinished
  split_ifs with hclosing
  · have hfaulty : s.Faulty := ht.closing (.inl hclosing.1)
    refine h.kept (.inl rfl) (fun _ => .inl hfaulty) (.inl rfl) rfl id fun hfault => ?_
    simp [Faulty, show s.owner.fault = none from hfault] at hfaulty
  · exact h

theorem fence_faulty (ht : s.Tidy) : s.fence.Faulty := by
  unfold fence
  dsimp only
  split_ifs with hclosed
  · exact ht.closing (.inr hclosed)
  · rfl

theorem Account.fence (h : s.Account) (ht : s.Tidy) : s.fence.Account := by
  have hfaulty := fence_faulty ht
  have hsame : s.fence.requests = s.requests ∧ s.fence.worker = s.worker ∧ s.fence.trace = s.trace ++ [.stopRequested] := by
    unfold Session.fence
    dsimp only
    split_ifs <;> exact ⟨rfl, rfl, rfl⟩
  obtain ⟨hrequests, hworker, htrace⟩ := hsame
  refine h.kept (.inr ⟨_, quiet_stopRequested, htrace⟩) (fun _ => .inl hfaulty) (.inl ?_) (by rw [hworker]) ?_ fun hfault => ?_
  · unfold unbegun
    rw [hrequests, hworker]
  · unfold ahead
    rw [hrequests, hworker]
    exact id
  · simp [Faulty, hfault] at hfaulty

theorem Account.hinted (h : s.Account) : (s.trySend .stop).2.Account := by
  unfold trySend
  split_ifs with hheld hfull
  · exact h
  · exact h
  · have hnone : s.requests = none := by simpa using hfull
    refine h.kept (.inl rfl) id (.inl ?_) rfl ?_ fun hfault => ⟨hfault, rfl⟩
    · simp [unbegun, hnone, Request.frames]
    · simp [ahead, hnone, Request.isData]

/-- The owner goes on in its call. -/
theorem Account.standing (h : s.Account) {stand : Stand} {trace : List Happening} (grows : s.Grows { s with trace }) :
    Account { s with stand, trace } :=
  h.kept grows id (.inl rfl) rfl id fun hfault => ⟨hfault, rfl⟩

theorem Account.retired (h : s.Account) (call : Call) : (s.retired call).Account := by
  unfold Session.retired
  split_ifs with hcall
  · subst hcall
    exact h.standing (.inr ⟨_, ⟨rfl, rfl, rfl, rfl, rfl, rfl⟩, rfl⟩)
  · exact h.standing (.inl rfl)

/-- A call is over. -/
def finish (s : Session) (e : Happening) : Session := { s.note e with stand := .home }

theorem total_finish (e : Happening) (part : Happening → List α) : (s.finish e).total part = s.total part ++ part e :=
  total_note e part

/-- The channel takes a data request: nothing before it is left. -/
theorem Account.asked (h : s.Account) (ht : s.Tidy) (hfree : s.Free) {request : Request} {e : Happening}
    (admitted : e.admitted = request.frames)
    (other : e.frames = [] ∧ e.given = [] ∧ e.handed = [] ∧ e.kept = [] ∧ e.fails = false) :
    ((s.asking request).finish e).Account := by
  obtain ⟨hframes, hgiven, hhanded, hkept, hsound⟩ := other
  obtain ⟨hout, hnone⟩ := ht.free hfree
  have hasks : s.worker.phase.asks = false := by
    simp only [outstanding, upstream, Nat.add_eq_zero_iff, Bool.toNat_eq_zero] at hout
    exact hout.1.2
  have hunfailed : ¬ s.Failed := fun hfailed => (h.failed hfailed).1.not_free hfree
  have hunbegun : s.unbegun = [] := by simp [unbegun, hnone, Phase.unbegun_eq_nil hasks]
  have hunbegun' : ((s.asking request).finish e).unbegun = request.frames := by
    simp [unbegun, Phase.unbegun_eq_nil hasks, finish, note, asking]
  have hbegun := h.begun.resolve_right fun hlost => hlost.2.2.not_free hfree
  have hwritten := h.written.resolve_right fun hlost => hunfailed hlost.2.2
  rw [hunbegun, List.append_nil] at hbegun
  rw [Phase.unwritten_eq_nil hasks, List.append_nil] at hwritten
  refine ⟨.inl ?_, .inl ?_, ?_, fun hfailed => ?_, ?_, fun hfault => ?_⟩
  · rw [total_finish, total_finish, hframes, List.append_nil, hunbegun', admitted]
    exact congrArg (· ++ request.frames) hbegun
  · rw [total_finish, total_finish, hframes, hgiven, List.append_nil, List.append_nil]
    exact (congrArg (_ ++ ·) (Phase.unwritten_eq_nil hasks)).trans ((List.append_nil _).trans hwritten)
  · rw [total_finish, total_finish, hgiven, List.append_nil, admitted]
    cases request with
    | write bytes =>
      change (s.total Happening.admitted ++ [bytes]).dropLast.flatten <+: s.total Happening.given
      rw [List.dropLast_concat, ← hbegun, ← hwritten]
    | read | stop =>
      change ((s.total Happening.admitted) ++ []).dropLast.flatten <+: _
      rw [List.append_nil]
      exact h.whole
  · obtain ⟨e', hmem, hfails⟩ := hfailed
    obtain hmem | hmem := List.mem_append.1 hmem
    · exact absurd ⟨e', hmem, hfails⟩ hunfailed
    · rw [List.mem_singleton.1 hmem, hsound] at hfails
      cases hfails
  · rw [total_finish, total_finish, hhanded, hkept, List.append_nil, List.append_nil]
    exact h.handed
  · rw [total_finish, total_finish, hhanded, hkept, List.append_nil, List.append_nil]
    exact h.received hfault

theorem total_finish_owner (o : ComTransport) (e : Happening) (part : Happening → List α) :
    (finish { s with owner := o } e).total part = s.total part ++ part e := total_note e part

/-- A read hands out what was received. -/
theorem Account.took (h : s.Account) (fault : s.owner.fault = none) (k length : ℕ) :
    (finish { s with owner := { s.owner with received := s.owner.received.drop k } }
      (.returned (.tryRead length) (.read (.ok (s.owner.received.take k))))).Account := by
  have hreceived := h.received fault
  refine ⟨?_, ?_, ?_, fun ⟨e, hmem, hfails⟩ => ?_, ?_, fun _ => ?_⟩
  · rw [total_finish_owner, total_finish_owner]
    simp only [Happening.frames, Happening.admitted, List.append_nil]
    exact h.begun
  · rw [total_finish_owner, total_finish_owner]
    simp only [Happening.frames, Happening.given, List.append_nil]
    refine h.written.imp_right fun ⟨hle, hnone, e, hmem, hfails⟩ => ⟨hle, hnone, e, List.mem_append_left _ hmem, hfails⟩
  · rw [total_finish_owner, total_finish_owner]
    simp only [Happening.admitted, Happening.given, List.append_nil]
    exact h.whole
  · obtain hmem | hmem := List.mem_append.1 hmem
    · exact h.failed ⟨e, hmem, hfails⟩
    · rw [List.mem_singleton.1 hmem] at hfails
      cases hfails
  · rw [total_finish_owner, total_finish_owner]
    simp only [Happening.handed, Happening.kept, List.append_nil]
    refine ⟨s.owner.received.drop k ++ s.coming, ?_⟩
    rw [List.append_assoc, ← List.append_assoc (List.take k _), List.take_append_drop, ← List.append_assoc]
    exact hreceived
  · rw [total_finish_owner, total_finish_owner]
    simp only [Happening.handed, Happening.kept, List.append_nil]
    change s.total Happening.handed ++ s.owner.received.take k ++ s.owner.received.drop k ++ s.coming = s.total Happening.kept
    rw [List.append_assoc (s.total Happening.handed), List.take_append_drop]
    exact hreceived

theorem Account.finish (h : s.Account) {e : Happening} (quiet : e.Quiet) : (s.finish e).Account :=
  h.standing (.inr ⟨e, quiet, rfl⟩)

theorem Account.join (h : s.Account) : s.join.Account := by
  unfold Session.join
  split_ifs
  · exact h.kept (.inl rfl) id (.inl rfl) rfl id fun hfault => ⟨hfault, rfl⟩
  · exact h

/-- The rest of a call, with what it returns. -/
theorem Account.conclude (h : s.Account) (ht : s.Tidy) (call : Call) (dropping : call = .drop → s.stop = true) :
    ((s.conclude call).2.finish (.returned call (s.conclude call).1)).Account := by
  cases call with
  | tryWrite bytes =>
    change ((s.tryWrite bytes).2.finish (.returned (.tryWrite bytes) (.wrote (s.tryWrite bytes).1))).Account
    obtain ⟨hsame, hnone⟩ | ⟨hfree, hbytes, hasked⟩ := ht.tryWrite_cases bytes
    · rw [hsame]
      refine h.finish ⟨?_, rfl, rfl, rfl, rfl, rfl⟩
      cases hresult : (s.tryWrite bytes).1 with
      | error => rfl
      | ok n => rw [hnone n hresult]; rfl
    · rw [hasked]
      refine h.asked ht hfree ?_ ⟨rfl, rfl, rfl, rfl, rfl⟩
      cases bytes with
      | nil => cases hbytes rfl
      | cons => rfl
  | tryRead length =>
    change ((s.tryRead length).2.finish (.returned (.tryRead length) (.read (s.tryRead length).1))).Account
    obtain ⟨error, hsame⟩ | ⟨k, hfault, htaken⟩ | ⟨hfree, maximum, hasked⟩ := ht.tryRead_cases length
    · rw [hsame]
      exact h.finish ⟨rfl, rfl, rfl, rfl, rfl, rfl⟩
    · rw [htaken]
      exact h.took hfault k length
    · rw [hasked]
      exact h.asked ht hfree rfl ⟨rfl, rfl, rfl, rfl, rfl⟩
  | tryRecover =>
    change (s.tryRecover.2.finish (.returned .tryRecover (.recovered s.tryRecover.1))).Account
    rw [ht.recover]
    exact h.finish ⟨rfl, rfl, rfl, rfl, rfl, rfl⟩
  | openStatus | snapshot | retire => exact h.finish ⟨rfl, rfl, rfl, rfl, rfl, rfl⟩
  | tryShutdown =>
    change (s.tryShutdown.2.finish (.returned .tryShutdown (.shutdown s.tryShutdown.1))).Account
    have hshut : s.tryShutdown.2.Account := by
      unfold tryShutdown
      split_ifs
      · exact h
      · exact h.join
    exact hshut.finish ⟨rfl, rfl, rfl, rfl, rfl, rfl⟩
  | drop =>
    have hfaulty : s.join.Faulty := by
      unfold Session.join
      split_ifs <;> exact ht.stopped (dropping rfl)
    refine Account.finish ?_ ⟨rfl, rfl, rfl, rfl, rfl, rfl⟩
    refine h.join.kept (.inl rfl) (fun _ => .inl hfaulty) (.inl rfl) rfl id fun hfault => ?_
    simp [Faulty, show s.join.owner.fault = none from hfault] at hfaulty

theorem Account.begin (h : s.Account) (call : Call) : (s.begin call).Account := by
  unfold Session.begin
  split_ifs with hhome
  · cases call <;> exact h.standing (.inl rfl)
  · exact h

theorem Account.advance (h : s.Account) (ht : s.Tidy) : s.advance.Account := by
  unfold Session.advance
  cases hstand : s.stand with
  | home => exact h
  | retiring call =>
    dsimp only
    split_ifs
    · exact (h.fence ht).retired call
    · exact (h.fence ht).standing (.inl rfl)
  | hinting call => exact h.hinted.retired call
  | draining call => exact (h.receive ht).standing (.inl rfl)
  | noticing call => exact (h.noticeFinished ht).standing (.inl rfl)
  | concluding call =>
    refine h.conclude ht call fun hdrop => ht.stopping (.inr (.inr (.inr (.inr (.inr ?_)))))
    rw [hstand, hdrop]
    rfl

theorem Account.step (h : s.Account) (ht : s.Tidy) (event : Event) : (s.step event).Account := by
  cases event with
  | call call => exact h.begin call
  | owner => exact h.advance ht
  | worker move =>
    change (s.work move).Account
    obtain hsame | hworked := s.work_cases move
    · rwa [hsame]
    · exact h.worked ht hworked

end Session

end LabRuntime.Com
