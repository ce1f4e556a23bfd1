import LabRuntime.Com.Session

/-! What one step of the worker can do, and how the two views of a session fit: at most one data
request is under way, and the owner asks for another only when it has seen the answer. -/

namespace LabRuntime.Com

def Request.isData : Request → Bool
  | .write _ | .read _ => true
  | .stop => false

/-- The completion of a data request, or of a failed open. -/
def Completion.answers : Completion → Bool
  | .written | .read _ | .failed _ => true
  | .opened | .stopped => false

namespace Phase

/-- The next access is a load of the stop flag. -/
def looksAtStop : Phase → Bool
  | .looking | .waiting _ _ | .opened | .entering | .taken _ | .answered => true
  | _ => false

/-- A data request is with the worker. -/
def asks : Phase → Bool
  | .taken request | .checked request => request.isData
  | .writing _ _ | .reading _ | .answering _ => true
  | _ => false

/-- Nothing was reported yet. -/
def early : Phase → Bool
  | .looking | .attempting | .waiting _ _ | .opened | .reporting | .announcing (.failed _) => true
  | _ => false

/-- The worker acts on a stop. -/
def stops : Phase → Bool
  | .taken .stop | .checked .stop | .announcing .stopped => true
  | _ => false

/-- A call of the device is under way. -/
def calls : Phase → Bool
  | .writing _ _ | .reading _ => true
  | _ => false

def ended : Phase → Bool
  | .returning | .finished => true
  | _ => false

/-- A request is answered by an answer, and the last word is a failed open or a stop. -/
def sound : Phase → Bool
  | .answering c => c.answers
  | .announcing (.failed _) | .announcing .stopped => true
  | .announcing _ => false
  | _ => true

end Phase

/-! ### Steps of the worker -/

/-- The call starts with the retirement. -/
def Call.retires : Call → Bool
  | .retire | .tryShutdown | .drop => true
  | _ => false

/-- The retirement of the call is behind its owner. -/
def Stand.fenced : Stand → Bool
  | .hinting _ => true
  | .draining call | .noticing call | .concluding call => call.retires
  | .home | .retiring _ => false

/-- A call of the device failed: it took nothing, or more than it was offered, or did not return. -/
def Happening.fails : Happening → Bool
  | .wroteOnce offered (.ok written) => written = 0 || offered.length < written
  | .wroteOnce _ (.error _) => true
  | .readOnce _ (.error _) => true
  | .panicked => true
  | _ => false

namespace Session

variable {s s' : Session}

/-- One step of the worker, by what it changes. -/
inductive Worked (s : Session) : Session → Prop
  | stopped (phase : s.worker.phase.looksAtStop = true) (stop : s.stop = true) : Worked s (s.move (.announcing .stopped))
  | attempt (phase : s.worker.phase = .looking) :
      Worked s { s with worker := { s.worker with phase := .attempting, openAttempts := s.worker.openAttempts + 1 } }
  | obtained (phase : s.worker.phase = .attempting) :
      Worked s { s with worker := { s.worker with phase := .opened, device := true } }
  | retried (error : SerialError) (retryAt : ℕ) (phase : s.worker.phase = .attempting) :
      Worked s { s with worker := { s.worker with phase := .waiting error retryAt, lastOpenError := some error } }
  | openFailed (error : SerialError) (phase : s.worker.phase = .attempting) :
      Worked s { s with worker := { s.worker with phase := .announcing (.failed error), lastOpenError := some error } }
  | expired (error : SerialError) (retryAt : ℕ) (phase : s.worker.phase = .waiting error retryAt) :
      Worked s (s.move (.announcing (.failed error)))
  | again (error : SerialError) (retryAt : ℕ) (phase : s.worker.phase = .waiting error retryAt) : Worked s (s.move .looking)
  | ready (phase : s.worker.phase = .opened) : Worked s (s.move .reporting)
  | reported (phase : s.worker.phase = .reporting) (room : s.completions = none) (heard : s.gone = false) :
      Worked s ((s.move .entering).put .opened)
  | unheard (phase : s.worker.phase = .reporting ∨ (∃ c, s.worker.phase = .answering c) ∨ ∃ c, s.worker.phase = .announcing c)
      (gone : s.gone = true) : Worked s (s.move .returning)
  | entered (phase : s.worker.phase = .entering ∨ s.worker.phase = .answered) : Worked s (s.move .receiving)
  | received (request : Request) (phase : s.worker.phase = .receiving) (slot : s.requests = some request) :
      Worked s { s.move (.taken request) with requests := none }
  | hungUp (phase : s.worker.phase = .receiving) (slot : s.requests = none) (gone : s.gone = true) :
      Worked s (s.move .returning)
  | checkedStop (phase : s.worker.phase = .taken .stop) : Worked s (s.move (.checked .stop))
  | passed (request : Request) (phase : s.worker.phase = .taken request) (data : request.isData = true)
      (running : s.stop = false) : Worked s ((s.note (.passed request)).move (.checked request))
  | stopTaken (phase : s.worker.phase = .checked .stop) : Worked s (s.requestStop.move (.announcing .stopped))
  | beganWrite (bytes : List UInt8) (phase : s.worker.phase = .checked (.write bytes)) :
      Worked s ((s.note (.began (.write bytes))).move (frame bytes 0))
  | beganRead (maximum : ℕ) (phase : s.worker.phase = .checked (.read maximum)) :
      Worked s ((s.note (.began (.read maximum))).move (.reading maximum))
  | wrote (bytes : List UInt8) (offset written : ℕ) (phase : s.worker.phase = .writing bytes offset)
      (some : 0 < written) (within : written ≤ bytes.length - offset) :
      Worked s ((s.note (.wroteOnce (bytes.drop offset) (.ok written))).move (frame bytes (offset + written)))
  | writeFailed (bytes : List UInt8) (offset : ℕ) (result : Except SerialError ℕ) (error : SerialError)
      (phase : s.worker.phase = .writing bytes offset)
      (fails : (Happening.wroteOnce (bytes.drop offset) result).fails = true) :
      Worked s ((s.note (.wroteOnce (bytes.drop offset) result)).move (.answering (.failed error)))
  | read (maximum : ℕ) (bytes : List UInt8) (phase : s.worker.phase = .reading maximum) :
      Worked s ((s.note (.readOnce maximum (.ok bytes))).move (.answering (.read bytes)))
  | readFailed (maximum : ℕ) (error : SerialError) (phase : s.worker.phase = .reading maximum) :
      Worked s ((s.note (.readOnce maximum (.error error))).move (.answering (.failed error)))
  | answered (c : Completion) (phase : s.worker.phase = .answering c) (room : s.completions = none) (heard : s.gone = false) :
      Worked s ((s.move .answered).put c)
  | announced (c : Completion) (phase : s.worker.phase = .announcing c) (room : s.completions = none) (heard : s.gone = false) :
      Worked s ((s.move .returning).put c)
  | openPanicked (phase : s.worker.phase = .attempting) : Worked s (s.move .returning)
  | panicked (phase : s.worker.phase.calls = true) : Worked s ((s.note .panicked).move .returning)
  | deviceDropped (phase : s.worker.phase = .returning) : Worked s { s with worker := { s.worker with device := false } }
  | requestsDropped (phase : s.worker.phase = .returning) :
      Worked s { s with requests := none, worker := { s.worker with requestsHeld := false } }
  | completionsDropped (phase : s.worker.phase = .returning) :
      Worked s { s with worker := { s.worker with completionsHeld := false } }
  | finished (phase : s.worker.phase = .returning) (device : s.worker.device = false)
      (requests : s.worker.requestsHeld = false) (completions : s.worker.completionsHeld = false) : Worked s (s.move .finished)

theorem worked_unlessStopped {next : Session} (hphase : s.worker.phase.looksAtStop = true)
    (hnext : s.stop = false → next = s ∨ Worked s next) : s.unlessStopped next = s ∨ Worked s (s.unlessStopped next) := by
  unfold unlessStopped
  split_ifs with hstop
  · exact .inr (.stopped hphase hstop)
  · exact hnext (by simpa using hstop)

theorem worked_send {c : Completion} {next : Phase}
    (hphase : s.worker.phase = .reporting ∨ (∃ c, s.worker.phase = .answering c) ∨ ∃ c, s.worker.phase = .announcing c)
    (hsent : s.completions = none → s.gone = false → Worked s ((s.move next).put c)) :
    s.send c next = s ∨ Worked s (s.send c next) := by
  unfold send
  split_ifs with hgone hfull
  · exact .inr (.unheard hphase hgone)
  · exact .inl rfl
  · exact .inr (hsent (by simpa using hfull) (by simpa using hgone))

theorem work_cases (s : Session) (m : WorkerMove) : s.work m = s ∨ Worked s (s.work m) := by
  unfold work
  split
  case h_1 phase => exact worked_unlessStopped (by rw [phase]; rfl) fun _ => .inr (.attempt phase)
  case h_2 phase => exact .inr (.obtained phase)
  case h_3 error now later phase =>
    dsimp only
    split_ifs
    · exact .inr (.retried error _ phase)
    · exact .inr (.openFailed error phase)
  case h_4 error retryAt now phase =>
    refine worked_unlessStopped (by rw [phase]; rfl) fun _ => ?_
    split_ifs
    · exact .inr (.expired error retryAt phase)
    · exact .inr (.again error retryAt phase)
    · exact .inl rfl
  case h_5 phase => exact worked_unlessStopped (by rw [phase]; rfl) fun _ => .inr (.ready phase)
  case h_6 phase => exact worked_send (.inl phase) fun room heard => .reported phase room heard
  case h_7 phase => exact worked_unlessStopped (by rw [phase]; rfl) fun _ => .inr (.entered (.inl phase))
  case h_8 phase =>
    split
    · exact .inr (.received _ phase ‹_›)
    · split_ifs with hgone
      · exact .inr (.hungUp phase ‹_› hgone)
      · exact .inl rfl
  case h_9 phase => exact worked_unlessStopped (by rw [phase]; rfl) fun _ => .inr (.checkedStop phase)
  case h_10 request hdata phase =>
    refine worked_unlessStopped (by rw [phase]; rfl) fun hrunning => .inr (.passed request phase ?_ hrunning)
    cases request with
    | stop => exact absurd rfl hdata
    | write | read => rfl
  case h_11 phase => exact .inr (.stopTaken phase)
  case h_12 bytes phase => exact .inr (.beganWrite bytes phase)
  case h_13 maximum phase => exact .inr (.beganRead maximum phase)
  case h_14 bytes offset result phase =>
    dsimp only
    split
    · exact .inr (.writeFailed bytes offset _ _ phase rfl)
    · split_ifs with hbad
      · refine .inr (.writeFailed bytes offset _ _ phase ?_)
        simpa [Happening.fails] using hbad
      · refine .inr (.wrote bytes offset _ phase ?_ ?_) <;> omega
  case h_15 maximum result phase =>
    dsimp only
    split
    · exact .inr (.readFailed maximum _ phase)
    · exact .inr (.read maximum _ phase)
  case h_16 c phase => exact worked_send (.inr (.inl ⟨c, phase⟩)) fun room heard => .answered c phase room heard
  case h_17 phase => exact worked_unlessStopped (by rw [phase]; rfl) fun _ => .inr (.entered (.inr phase))
  case h_18 c phase => exact worked_send (.inr (.inr ⟨c, phase⟩)) fun room heard => .announced c phase room heard
  case h_19 phase => exact .inr (.openPanicked phase)
  case h_20 phase => exact .inr (.panicked (by rw [phase]; rfl))
  case h_21 phase => exact .inr (.panicked (by rw [phase]; rfl))
  case h_22 phase => exact .inr (.deviceDropped phase)
  case h_23 phase => exact .inr (.requestsDropped phase)
  case h_24 phase => exact .inr (.completionsDropped phase)
  case h_25 phase =>
    split_ifs with hdropped
    · exact .inr (.finished phase hdropped.1 hdropped.2.1 hdropped.2.2)
    · exact .inl rfl
  case h_26 => exact .inl rfl

/-! ### What is under way -/

@[simp] theorem put_completions (c : Completion) : (s.put c).completions = some c := rfl

/-- The data requests that the worker has not answered. -/
def upstream (s : Session) : ℕ := (s.requests.any Request.isData).toNat + s.worker.phase.asks.toNat

/-- The data requests whose answer the owner has not seen. -/
def outstanding (s : Session) : ℕ := s.upstream + (s.completions.any Completion.answers).toNat

def Faulty (s : Session) : Prop := s.owner.fault.isSome = true

/-- Somebody acts on a stop. -/
def Stopping (s : Session) : Prop :=
  s.requests = some .stop ∨ s.worker.phase.stops = true ∨ s.completions = some .stopped ∨
    s.owner.state = .closing ∨ s.owner.state = .closed ∨ s.stand.fenced = true

/-- The owner will not ask a worker that is over: it has noted or is about to note a fault. -/
def Settled (s : Session) : Prop :=
  s.Faulty ∨ (s.owner.state = .opening ∧ s.completions ≠ some .opened) ∨ (s.owner.pending = true ∧ s.completions = none)

structure Tidy (s : Session) : Prop where
  one : s.outstanding ≤ 1
  asked : s.upstream ≠ 0 → s.Faulty ∨ (s.owner.pending = true ∧ s.owner.state = .online)
  answered : ∀ c, s.completions = some c → c.answers = true → s.Faulty ∨ s.owner.pending = true ∨ s.owner.state = .opening
  early : s.worker.phase.early = true → s.completions = none ∧ s.upstream = 0 ∧ (s.owner.state = .opening ∨ s.Faulty)
  opened : s.completions = some .opened → s.upstream = 0 ∧ (s.owner.state = .opening ∨ s.Faulty)
  state : s.owner.state = .online ∨ s.owner.state = .opening ∨ s.Faulty
  stopped : s.stop = true → s.Faulty
  stopping : s.Stopping → s.stop = true
  ended : s.worker.phase.ended = true → s.Settled
  clean : s.owner.cleanBoundary = false
  gone : s.gone = true → s.stop = true
  sound : s.worker.phase.sound = true

theorem tidy_spawned (retry : OpenRetryPolicy) : (spawned retry).Tidy := by
  constructor <;> simp [spawned, outstanding, upstream, Stopping, Phase.asks, Phase.stops, Phase.ended, Phase.sound, Stand.fenced]

/-- The worker moves on and takes a request or drops it. -/
theorem Tidy.taking (h : s.Tidy) {w : Worker} {requests : Option Request} {trace : List Happening}
    (up : upstream { s with worker := w, requests, trace } ≤ s.upstream) (slot : requests = some .stop → s.stop = true)
    (early : w.phase.early = true → s.worker.phase.early = true) (stops : w.phase.stops = true → s.stop = true)
    (ended : w.phase.ended = true → s.worker.phase.ended = true ∨ s.Settled) (sound : w.phase.sound = true) :
    Tidy { s with worker := w, requests, trace } := by
  refine ⟨(Nat.add_le_add_right up _).trans h.one, fun hne => h.asked (by omega), h.answered, fun hearly => ?_, fun hslot => ?_,
    h.state, h.stopped, ?_, fun hended => ?_, h.clean, h.gone, sound⟩
  · obtain ⟨hslot, hnone, hstate⟩ := h.early (early hearly)
    exact ⟨hslot, by omega, hstate⟩
  · obtain ⟨hnone, hstate⟩ := h.opened hslot
    exact ⟨by omega, hstate⟩
  · rintro (hslot | hphase | hrest)
    · exact slot hslot
    · exact stops hphase
    · exact h.stopping (.inr (.inr hrest))
  · exact (ended hended).elim h.ended id

theorem Tidy.moved (h : s.Tidy) {w : Worker} {trace : List Happening}
    (asks : w.phase.asks = true → s.worker.phase.asks = true) (early : w.phase.early = true → s.worker.phase.early = true)
    (stops : w.phase.stops = true → s.stop = true) (ended : w.phase.ended = true → s.worker.phase.ended = true ∨ s.Settled)
    (sound : w.phase.sound = true) : Tidy { s with worker := w, trace } :=
  h.taking (Nat.add_le_add_left (Bool.toNat_le_toNat asks) _) (fun hslot => h.stopping (.inl hslot)) early stops ended sound

/-- While a data request is under way nothing else comes back. -/
theorem Tidy.busy (h : s.Tidy) (hup : s.upstream ≠ 0) :
    s.Faulty ∨ (s.owner.pending = true ∧ s.owner.state = .online ∧ s.completions = none) := by
  obtain hfaulty | ⟨hpending, hstate⟩ := h.asked hup
  · exact .inl hfaulty
  · cases hslot : s.completions with
    | none => exact .inr ⟨hpending, hstate, rfl⟩
    | some c =>
      have hone := h.one
      unfold outstanding at hone
      rw [hslot] at hone
      cases c with
      | opened => exact absurd (h.opened hslot).1 hup
      | stopped => exact .inl (h.stopped (h.stopping (.inr (.inr (.inl hslot)))))
      | written | read | failed =>
        simp only [Option.any_some, Completion.answers, Bool.toNat_true] at hone
        omega

theorem upstream_of_asks (h : s.worker.phase.asks = true) : s.upstream ≠ 0 := by
  unfold upstream
  rw [h]
  simp

theorem frame_asks (bytes : List UInt8) (offset : ℕ) : (frame bytes offset).asks = true := by
  unfold frame
  split_ifs <;> rfl

theorem frame_steady (bytes : List UInt8) (offset : ℕ) : (frame bytes offset).early = false ∧
    (frame bytes offset).stops = false ∧ (frame bytes offset).ended = false ∧ (frame bytes offset).sound = true := by
  unfold frame
  split_ifs <;> exact ⟨rfl, rfl, rfl, rfl⟩

/-- The next write call, or its completion. -/
theorem Tidy.framed (h : s.Tidy) (hasks : s.worker.phase.asks = true) (bytes : List UInt8) (offset : ℕ) (happening : Happening) :
    ((s.note happening).move (frame bytes offset)).Tidy := by
  obtain ⟨hearly, hstops, hended, hsound⟩ := frame_steady bytes offset
  exact h.moved (fun _ => hasks) (fun he => by simp [hearly] at he) (fun hs => by simp [hstops] at hs)
    (fun he => by simp [hended] at he) hsound

theorem Tidy.worked (h : s.Tidy) (hw : s.Worked s') : s'.Tidy := by
  cases hw with
  | stopped phase stop => exact h.moved nofun nofun (fun _ => stop) nofun rfl
  | attempt phase | obtained phase | retried error retryAt phase | openFailed error phase =>
    exact h.moved nofun (fun _ => by rw [phase]; rfl) nofun nofun rfl
  | expired error retryAt phase | again error retryAt phase | ready phase =>
    exact h.moved nofun (fun _ => by rw [phase]; rfl) nofun nofun rfl
  | reported phase room =>
    obtain ⟨-, hup, hstate⟩ := h.early (by rw [phase]; rfl)
    have hup' : ((s.move .entering).put .opened).upstream = 0 := by
      have hnone : s.requests.any Request.isData = false ∧ s.worker.phase.asks = false := by simpa [upstream] using hup
      simp [upstream, move, put, hnone.1, Phase.asks]
    refine ⟨by simp [outstanding, hup', Completion.answers], fun hne => absurd hup' hne, fun c hc hanswers => ?_, nofun,
      fun _ => ⟨hup', hstate⟩, h.state, h.stopped, ?_, nofun, h.clean, h.gone, rfl⟩
    · obtain rfl : .opened = c := Option.some.inj hc
      cases hanswers
    · rintro (hslot | hphase | hslot | hrest)
      · exact h.stopping (.inl hslot)
      · cases hphase
      · cases hslot
      · exact h.stopping (.inr (.inr (.inr hrest)))
  | unheard phase gone => exact h.moved nofun nofun nofun (fun _ => .inr (.inl (h.stopped (h.gone gone)))) rfl
  | entered phase => exact h.moved nofun nofun nofun nofun rfl
  | received request phase slot =>
    refine h.taking ?_ nofun nofun (fun hstops => ?_) nofun rfl
    · simp [upstream, slot, phase, move, Phase.asks]
    · refine h.stopping (.inl ?_)
      rw [slot]
      cases request with
      | stop => rfl
      | write | read => cases hstops
  | hungUp phase slot gone => exact h.moved nofun nofun nofun (fun _ => .inr (.inl (h.stopped (h.gone gone)))) rfl
  | checkedStop phase =>
    exact h.moved nofun nofun (fun _ => h.stopping (.inr (.inl (by rw [phase]; rfl)))) nofun rfl
  | passed request phase data running =>
    refine h.moved (fun hasks => by rw [phase]; exact hasks) nofun (fun hstops => ?_) nofun rfl
    cases request with
    | stop => cases data
    | write | read => cases hstops
  | stopTaken phase =>
    have hstop : s.stop = true := h.stopping (.inr (.inl (by rw [phase]; rfl)))
    have hsame : s.requestStop.move (.announcing .stopped) = (s.note .stopRequested).move (.announcing .stopped) := by
      unfold requestStop
      rw [← hstop]
      rfl
    rw [hsame]
    exact h.moved nofun nofun (fun _ => hstop) nofun rfl
  | beganWrite bytes phase => exact h.framed (by rw [phase]; rfl) bytes 0 _
  | beganRead maximum phase => exact h.moved (fun _ => by rw [phase]; rfl) nofun nofun nofun rfl
  | wrote bytes offset written phase => exact h.framed (by rw [phase]; rfl) bytes (offset + written) _
  | writeFailed bytes offset result error phase | read maximum bytes phase | readFailed maximum error phase =>
    exact h.moved (fun _ => by rw [phase]; rfl) nofun nofun nofun rfl
  | answered c phase room =>
    have hanswers : c.answers = true := by simpa [phase, Phase.sound] using h.sound
    have hasked := h.asked (upstream_of_asks (by rw [phase]; rfl))
    have hone := h.one
    have hup : ((s.move .answered).put c).upstream + 1 = s.upstream := by simp [upstream, move, put, phase, Phase.asks]
    have hout : ((s.move .answered).put c).outstanding = s.upstream := by
      simp [outstanding, ← hup, hanswers]
    refine ⟨?_, fun hne => h.asked (by omega), fun _ _ _ => hasked.imp_right fun hpending => .inl hpending.1, nofun,
      fun hslot => ?_, h.state, h.stopped, ?_, nofun, h.clean, h.gone, rfl⟩
    · unfold outstanding at hone
      omega
    · cases hslot
      cases hanswers
    · rintro (hslot | hphase | hslot | hrest)
      · exact h.stopping (.inl hslot)
      · cases hphase
      · cases hslot
        cases hanswers
      · exact h.stopping (.inr (.inr (.inr hrest)))
  | announced c phase room =>
    have hsound := h.sound
    have hup : ((s.move .returning).put c).upstream = s.upstream := by simp [upstream, move, put, phase, Phase.asks]
    rw [phase] at hsound
    cases c with
    | failed error =>
      obtain ⟨-, hnone, hstate⟩ := h.early (by rw [phase]; rfl)
      refine ⟨by simp [outstanding, hup, hnone, Completion.answers], fun hne => absurd (hup.trans hnone) hne,
        fun _ _ _ => hstate.symm.imp_right .inr, nofun, nofun, h.state, h.stopped, ?_, fun _ => ?_, h.clean, h.gone, rfl⟩
      · rintro (hslot | hphase | hslot | hrest)
        · exact h.stopping (.inl hslot)
        · cases hphase
        · cases hslot
        · exact h.stopping (.inr (.inr (.inr hrest)))
      · exact hstate.elim (fun hstate => .inr (.inl ⟨hstate, nofun⟩)) .inl
    | stopped =>
      have hstop : s.stop = true := h.stopping (.inr (.inl (by rw [phase]; rfl)))
      have hfaulty : s.Faulty := h.stopped hstop
      refine ⟨?_, fun _ => .inl hfaulty, fun _ _ _ => .inl hfaulty, nofun, nofun, h.state, h.stopped, fun _ => hstop,
        fun _ => .inl hfaulty, h.clean, h.gone, rfl⟩
      have hone := h.one
      unfold outstanding at hone ⊢
      rw [hup]
      exact Nat.le_of_add_right_le hone
    | _ => cases hsound
  | openPanicked phase =>
    obtain ⟨hslot, -, hstate⟩ := h.early (by rw [phase]; rfl)
    refine h.moved nofun nofun nofun (fun _ => .inr ?_) rfl
    exact hstate.elim (fun hstate => .inr (.inl ⟨hstate, by rw [hslot]; nofun⟩)) .inl
  | panicked phase =>
    have hasks : s.worker.phase.asks = true := by
      cases hphase : s.worker.phase <;> first | rfl | (rw [hphase] at phase; cases phase)
    exact h.moved nofun nofun nofun (fun _ => .inr ((h.busy (upstream_of_asks hasks)).imp_right fun hpending =>
      .inr ⟨hpending.1, hpending.2.2⟩)) rfl
  | deviceDropped phase | completionsDropped phase =>
    exact h.moved id id (fun hs => h.stopping (.inr (.inl hs))) .inl h.sound
  | requestsDropped phase =>
    refine h.taking ?_ nofun id (fun hs => h.stopping (.inr (.inl hs))) .inl h.sound
    simp [upstream]
  | finished phase => exact h.moved nofun nofun nofun (fun _ => .inl (by rw [phase]; rfl)) rfl

/-! ### Steps of the owner -/

theorem Tidy.outstanding_le (h : s.Tidy) : s.upstream ≤ 1 := (Nat.le_add_right _ _).trans h.one

/-- The owner notes a fault, or keeps the one it has. -/
theorem Tidy.faulted (h : s.Tidy) {o : ComTransport} {completions : Option Completion} {stop : Bool}
    {trace : List Happening} (fault : o.fault.isSome = true) (clean : o.cleanBoundary = false)
    (kept : s.stop = true → stop = true) (state : o.state = .closing ∨ o.state = .closed → stop = true)
    (slot : completions = none ∨ completions = s.completions) : Tidy { s with owner := o, completions, stop, trace } := by
  refine ⟨?_, fun _ => .inl fault, fun _ _ _ => .inl fault, fun hearly => ?_, fun hslot => ?_, .inr (.inr fault), fun _ => fault,
    ?_, fun _ => .inl fault, clean, fun hgone => kept (h.gone hgone), h.sound⟩
  · obtain rfl | rfl := slot
    · exact h.outstanding_le
    · exact h.one
  · obtain ⟨hnone, hup, -⟩ := h.early hearly
    refine ⟨?_, hup, .inr fault⟩
    obtain rfl | rfl := slot
    · rfl
    · exact hnone
  · obtain rfl | rfl := slot
    · cases hslot
    · exact ⟨(h.opened hslot).1, .inr fault⟩
  · rintro (hslot | hphase | hslot | hstate | hstate | hstand)
    · exact kept (h.stopping (.inl hslot))
    · exact kept (h.stopping (.inr (.inl hphase)))
    · obtain rfl | rfl := slot
      · cases hslot
      · exact kept (h.stopping (.inr (.inr (.inl hslot))))
    · exact state (.inl hstate)
    · exact state (.inr hstate)
    · exact kept (h.stopping (.inr (.inr (.inr (.inr (.inr hstand))))))

/-- The answer of a data request is taken. -/
theorem Tidy.heard (h : s.Tidy) {c : Completion} (slot : s.completions = some c) (answers : c.answers = true)
    {o : ComTransport} (fault : o.fault = s.owner.fault) (clean : o.cleanBoundary = s.owner.cleanBoundary)
    (state : o.state = s.owner.state) : Tidy { s with owner := o, completions := none } := by
  have hup : s.upstream = 0 := by
    have hone := h.one
    unfold outstanding at hone
    rw [slot, Option.any_some, answers, Bool.toNat_true] at hone
    omega
  have hfaulty : Faulty { s with owner := o, completions := none } ↔ s.Faulty := by unfold Faulty; rw [← fault]
  refine ⟨hup.trans_le (Nat.zero_le _), fun hne => absurd hup hne, nofun, fun hearly => ⟨rfl, hup, ?_⟩, nofun, ?_,
    fun hstop => hfaulty.2 (h.stopped hstop), ?_, fun hended => ?_, clean.trans h.clean, h.gone, h.sound⟩
  · rw [hfaulty]
    exact (h.early hearly).2.2.imp_left state.trans
  · rw [hfaulty]
    exact h.state.imp state.trans (.imp_left state.trans)
  · rintro (hslot | hphase | hslot | hrest)
    · exact h.stopping (.inl hslot)
    · exact h.stopping (.inr (.inl hphase))
    · cases hslot
    · exact h.stopping (.inr (.inr (.inr (state ▸ hrest))))
  · obtain hfault | ⟨hstate, -⟩ | ⟨-, hnone⟩ := h.ended hended
    · exact .inl (hfaulty.2 hfault)
    · exact .inr (.inl ⟨state.trans hstate, nofun⟩)
    · rw [hnone] at slot
      cases slot

theorem receive_none (slot : s.completions = none) :
    s.receive = { s with owner := s.owner.settle (if s.worker.completionsHeld then .empty else .disconnected) } := by
  unfold receive
  split
  · rw [slot] at *
    contradiction
  · rfl

theorem receive_some {c : Completion} (slot : s.completions = some c) :
    s.receive = { s with completions := none, owner := s.owner.settle (.completion c) } := by
  unfold receive
  split
  · rw [slot] at *
    cases ‹some c = some _›
    rfl
  · rw [slot] at *
    contradiction

theorem settle_clean (o : ComTransport) (r : TryRecv) : (o.settle r).cleanBoundary = o.cleanBoundary := by
  unfold ComTransport.settle
  split <;> (try split_ifs) <;> rfl

/-- The open is reported to an owner that still waits for it. -/
theorem Tidy.online (h : s.Tidy) (slot : s.completions = some .opened) (fault : s.owner.fault = none) {o : ComTransport}
    (clean : o.cleanBoundary = s.owner.cleanBoundary) (state : o.state = .online) :
    Tidy { s with owner := o, completions := none } := by
  have hsound : ¬ s.Faulty := by simp [Faulty, fault]
  obtain ⟨hup, hopening⟩ := h.opened slot
  have hopening := hopening.resolve_right hsound
  refine ⟨hup.trans_le (Nat.zero_le _), fun hne => absurd hup hne, nofun, fun hearly => ?_, nofun, .inl state,
    fun hstop => absurd (h.stopped hstop) hsound, ?_, fun hended => ?_, clean.trans h.clean, h.gone, h.sound⟩
  · rw [(h.early hearly).1] at slot
    cases slot
  · rintro (hslot | hphase | hslot | hstate | hstate | hstand)
    · exact h.stopping (.inl hslot)
    · exact h.stopping (.inr (.inl hphase))
    · cases hslot
    · cases state.symm.trans hstate
    · cases state.symm.trans hstate
    · exact h.stopping (.inr (.inr (.inr (.inr (.inr hstand)))))
  · obtain hfault | ⟨-, hne⟩ | ⟨-, hnone⟩ := h.ended hended
    · exact absurd hfault hsound
    · exact absurd slot hne
    · rw [hnone] at slot
      cases slot

theorem Tidy.receive (h : s.Tidy) : s.receive.Tidy := by
  have hstate : s.owner.state = .closing ∨ s.owner.state = .closed → s.stop = true := fun hstate =>
    h.stopping (.inr (.inr (.inr (hstate.imp_right .inl))))
  cases hslot : s.completions with
  | none =>
    rw [receive_none hslot]
    split_ifs with hheld
    · exact h
    · by_cases hclosing : s.owner.state = .closing ∨ s.owner.state = .closed
      · simpa only [ComTransport.settle, if_pos hclosing] using h
      · refine h.faulted ?_ ((settle_clean _ _).trans h.clean) id (fun hnew => ?_) (.inr rfl)
        · simp only [ComTransport.settle, if_neg hclosing]
          cases s.owner.fault <;> rfl
        · simp [ComTransport.settle, if_neg hclosing] at hnew
  | some c =>
    rw [receive_some hslot]
    have hclean : (s.owner.settle (.completion c)).cleanBoundary = false := (settle_clean _ _).trans h.clean
    cases c with
    | opened =>
      cases hfault : s.owner.fault with
      | some error =>
        refine h.faulted ?_ hclean id (fun hnew => ?_) (.inl rfl)
        · simp only [ComTransport.settle]
          split_ifs <;> simp [hfault]
        · simp only [ComTransport.settle] at hnew
          split_ifs at hnew with hclosing
          · simp at hnew
          · exact hstate hnew
      | none =>
        have hopening := (h.opened hslot).2.resolve_right (by simp [Faulty, hfault])
        have hne : s.owner.state ≠ .closing := by rw [hopening]; nofun
        refine h.online hslot hfault (settle_clean _ _) ?_
        simp [ComTransport.settle, hne]
    | written => exact h.heard hslot rfl rfl rfl rfl
    | read bytes =>
      refine h.heard hslot rfl ?_ (settle_clean _ _) ?_ <;> (simp only [ComTransport.settle]; split_ifs <;> rfl)
    | failed error =>
      refine h.faulted ?_ hclean id (fun hnew => ?_) (.inl rfl)
      · simp only [ComTransport.settle]
        split_ifs <;> rfl
      · simp only [ComTransport.settle] at hnew
        split_ifs at hnew with hclosing
        · simp at hnew
        · exact hstate (.inl (not_not.1 hclosing))
    | stopped =>
      have hstop := h.stopping (.inr (.inr (.inl hslot)))
      exact h.faulted (h.stopped hstop) hclean id (fun _ => hstop) (.inl rfl)

theorem Tidy.noticeFinished (h : s.Tidy) : s.noticeFinished.Tidy := by
  unfold Session.noticeFinished
  split_ifs with hclosing
  · have hstop := h.stopping (.inr (.inr (.inr (.inl hclosing.1))))
    exact h.faulted (h.stopped hstop) h.clean id (fun _ => hstop) (.inr rfl)
  · exact h

theorem Tidy.fence (h : s.Tidy) : s.fence.Tidy := by
  unfold Session.fence
  dsimp only
  split_ifs with hclosed
  · have hfaulty := h.stopped (h.stopping (.inr (.inr (.inr (.inr (.inl hclosed))))))
    exact h.faulted hfaulty h.clean (fun _ => rfl) (fun _ => rfl) (.inr rfl)
  · exact h.faulted rfl h.clean (fun _ => rfl) (fun _ => rfl) (.inr rfl)

/-- The owner goes on in its call. -/
theorem Tidy.standing (h : s.Tidy) {stand : Stand} {trace : List Happening}
    (fenced : stand.fenced = true → s.stop = true) : Tidy { s with stand, trace } := by
  refine ⟨h.one, h.asked, h.answered, h.early, h.opened, h.state, h.stopped, ?_, h.ended, h.clean, h.gone, h.sound⟩
  rintro (hslot | hphase | hslot | hstate | hstate | hstand)
  · exact h.stopping (.inl hslot)
  · exact h.stopping (.inr (.inl hphase))
  · exact h.stopping (.inr (.inr (.inl hslot)))
  · exact h.stopping (.inr (.inr (.inr (.inl hstate))))
  · exact h.stopping (.inr (.inr (.inr (.inr (.inl hstate)))))
  · exact fenced hstand

theorem Tidy.retired (h : s.Tidy) (call : Call) (stop : s.stop = true) : (s.retired call).Tidy := by
  unfold Session.retired
  split_ifs
  · exact h.standing nofun
  · exact h.standing fun _ => stop

theorem Tidy.hinted (h : s.Tidy) (stop : s.stop = true) : (s.trySend .stop).2.Tidy := by
  unfold trySend
  split_ifs with hheld hfull
  · exact h
  · exact h
  · have hfaulty := h.stopped stop
    have hnone : s.requests = none := by simpa using hfull
    have hup : upstream { s with requests := some .stop } = s.upstream := by simp [upstream, hnone, Request.isData]
    refine ⟨?_, fun _ => .inl hfaulty, fun _ _ _ => .inl hfaulty, fun hearly => ?_, fun hslot => ?_, h.state, h.stopped,
      fun _ => stop, h.ended, h.clean, h.gone, h.sound⟩
    · exact (Nat.add_le_add_right hup.le _).trans h.one
    · obtain ⟨hslot, hnone, hstate⟩ := h.early hearly
      exact ⟨hslot, hup.trans hnone, hstate⟩
    · exact ⟨hup.trans (h.opened hslot).1, (h.opened hslot).2⟩

/-- The owner may ask: it knows of no fault and of no request under way. -/
structure Free (s : Session) : Prop where
  fault : s.owner.fault = none
  pending : s.owner.pending = false
  state : s.owner.state = .online

/-- An owner that may ask finds the channel empty and the worker without a request. -/
theorem Tidy.free (h : s.Tidy) (hfree : s.Free) : s.outstanding = 0 ∧ s.requests = none := by
  have hsound : ¬ s.Faulty := by simp [Faulty, hfree.fault]
  have hup : s.upstream = 0 := by
    by_contra hne
    obtain hfaulty | ⟨hpending, -⟩ := h.asked hne
    · exact hsound hfaulty
    · cases hfree.pending.symm.trans hpending
  have hanswers : s.completions.any Completion.answers = false := by
    cases hslot : s.completions with
    | none => rfl
    | some c =>
      rw [Option.any_some, ← Bool.not_eq_true]
      intro hc
      obtain hfaulty | hpending | hstate := h.answered c hslot hc
      · exact hsound hfaulty
      · cases hfree.pending.symm.trans hpending
      · cases hfree.state.symm.trans hstate
  refine ⟨by simp [outstanding, hup, hanswers], ?_⟩
  cases hslot : s.requests with
  | none => rfl
  | some request =>
    cases request with
    | stop => exact absurd (h.stopped (h.stopping (.inl hslot))) hsound
    | write | read => simp [upstream, hslot, Request.isData] at hup

/-- What the owner's state becomes when the channel takes a data request. -/
def asking (s : Session) (request : Request) : Session :=
  { s with requests := some request, owner := { s.owner with pending := true } }

theorem Tidy.asking (h : s.Tidy) (hfree : s.Free) {request : Request} (data : request.isData = true) :
    (s.asking request).Tidy := by
  obtain ⟨hout, hnone⟩ := h.free hfree
  have hsound : ¬ s.Faulty := by simp [Faulty, hfree.fault]
  have hopening : ¬ (s.owner.state = .opening ∨ s.Faulty) := by
    rw [hfree.state]
    exact not_or.2 ⟨nofun, hsound⟩
  have hup : (s.asking request).outstanding = 1 := by
    simp [outstanding, upstream, hnone] at hout
    simp [outstanding, upstream, Session.asking, data, hout.1, hout.2]
  refine ⟨hup.le, fun _ => .inr ⟨rfl, hfree.state⟩, fun _ _ _ => .inr (.inl rfl), fun hearly => absurd (h.early hearly).2.2 hopening,
    fun hslot => absurd (h.opened hslot).2 hopening, h.state, h.stopped, ?_, fun hended => ?_, h.clean, h.gone, h.sound⟩
  · rintro (hslot | hrest)
    · cases hslot
      cases data
    · exact h.stopping (.inr hrest)
  · obtain hfault | ⟨hstate, -⟩ | ⟨hpending, -⟩ := h.ended hended
    · exact absurd hfault hsound
    · exact absurd (.inl hstate) hopening
    · cases hfree.pending.symm.trans hpending

/-! ### Calls -/

theorem Tidy.trySend (h : s.Tidy) (hfree : s.Free) (request : Request) :
    s.trySend request = (.disconnected, s) ∨ s.trySend request = (.ok, { s with requests := some request }) := by
  unfold Session.trySend
  rw [(h.free hfree).2]
  split_ifs with hheld
  · exact .inl rfl
  · cases ‹(none : Option Request).isSome = true›
  · exact .inr rfl

/-- No write meets a full channel. -/
theorem Tidy.tryWrite_cases (h : s.Tidy) (bytes : List UInt8) :
    ((s.tryWrite bytes).2 = s ∧ ∀ n, (s.tryWrite bytes).1 = .ok n → n = 0) ∨
      (s.Free ∧ bytes ≠ [] ∧ s.tryWrite bytes = (.ok bytes.length, s.asking (.write bytes))) := by
  unfold Session.tryWrite
  split_ifs with hclosed hfault hlength hpending
  · exact .inl ⟨rfl, nofun⟩
  · exact .inl ⟨rfl, nofun⟩
  · exact .inl ⟨rfl, nofun⟩
  · exact .inl ⟨rfl, fun n hn => by cases hn; rfl⟩
  · have hfault : s.owner.fault = none := by simpa using hfault
    have hfree : s.Free := by
      refine ⟨hfault, by simpa using fun hp => hpending (.inr hp), ?_⟩
      obtain hstate | hstate | hfaulty := h.state
      · exact hstate
      · exact absurd (.inl hstate) hpending
      · simp [Faulty, hfault] at hfaulty
    obtain hsent | hsent := h.trySend hfree (.write bytes)
    · rw [hsent]
      exact .inl ⟨rfl, nofun⟩
    · rw [hsent]
      exact .inr ⟨hfree, fun hempty => hlength (.inl hempty), rfl⟩

/-- No read meets a full channel, and it hands out what was received. -/
theorem Tidy.tryRead_cases (h : s.Tidy) (length : ℕ) :
    (∃ error, s.tryRead length = (.error error, s)) ∨
      (∃ k, s.owner.fault = none ∧ s.tryRead length = (.ok (s.owner.received.take k),
        { s with owner := { s.owner with received := s.owner.received.drop k } })) ∨
      (s.Free ∧ ∃ maximum, s.tryRead length = (.ok [], s.asking (.read maximum))) := by
  unfold Session.tryRead
  dsimp only
  split_ifs with hfault hcopied hpending
  · exact .inl ⟨_, rfl⟩
  · exact .inr (.inl ⟨_, by simpa using hfault, rfl⟩)
  · obtain ⟨hcopied, -⟩ := not_or.1 hcopied
    rw [not_not.1 hcopied]
    exact .inr (.inl ⟨0, by simpa using hfault, rfl⟩)
  · obtain ⟨hcopied, -⟩ := not_or.1 hcopied
    obtain ⟨hstate, hp⟩ := not_or.1 hpending
    have hfree : s.Free := ⟨by simpa using hfault, by simpa using hp, not_not.1 hstate⟩
    rw [not_not.1 hcopied, List.drop_zero]
    obtain hsent | hsent := h.trySend hfree (.read (min length maxInternalReadBytes))
    · change s.trySend _ = _ at hsent
      rw [hsent]
      exact .inl ⟨_, rfl⟩
    · rw [hsent]
      exact .inr (.inr ⟨hfree, _, rfl⟩)

/-- The owner keeps its view and only its buffer or its join handle changes. -/
theorem Tidy.kept (h : s.Tidy) {o : ComTransport} (fault : o.fault = s.owner.fault) (pending : o.pending = s.owner.pending)
    (state : o.state = s.owner.state) (clean : o.cleanBoundary = s.owner.cleanBoundary) : Tidy { s with owner := o } := by
  have hfaulty : Faulty { s with owner := o } ↔ s.Faulty := by unfold Faulty; rw [← fault]
  refine ⟨h.one, fun hne => ?_, fun c hc hanswers => ?_, fun hearly => ?_, fun hslot => ?_, ?_, fun hstop => hfaulty.2 (h.stopped hstop),
    ?_, fun hended => ?_, clean.trans h.clean, h.gone, h.sound⟩
  · exact (h.asked hne).imp hfaulty.2 (.imp pending.trans state.trans)
  · exact (h.answered c hc hanswers).imp hfaulty.2 (.imp pending.trans state.trans)
  · obtain ⟨hslot, hup, hstate⟩ := h.early hearly
    exact ⟨hslot, hup, hstate.imp state.trans hfaulty.2⟩
  · obtain ⟨hup, hstate⟩ := h.opened hslot
    exact ⟨hup, hstate.imp state.trans hfaulty.2⟩
  · exact h.state.imp state.trans (.imp state.trans hfaulty.2)
  · rintro (hslot | hphase | hslot | hstate | hstate | hstand)
    · exact h.stopping (.inl hslot)
    · exact h.stopping (.inr (.inl hphase))
    · exact h.stopping (.inr (.inr (.inl hslot)))
    · exact h.stopping (.inr (.inr (.inr (.inl (state.symm.trans hstate)))))
    · exact h.stopping (.inr (.inr (.inr (.inr (.inl (state.symm.trans hstate))))))
    · exact h.stopping (.inr (.inr (.inr (.inr (.inr hstand)))))
  · exact (h.ended hended).imp hfaulty.2 (.imp (.imp_left state.trans) (.imp_left pending.trans))

theorem Tidy.join (h : s.Tidy) : s.join.Tidy := by
  unfold Session.join
  split_ifs
  · exact h.kept rfl rfl rfl rfl
  · exact h

theorem Tidy.recover (h : s.Tidy) : s.tryRecover.2 = s := by
  unfold tryRecover
  rw [h.clean]
  split_ifs with hclosed hclean
  · rfl
  · cases hclean.1
  · rfl

theorem Tidy.conclude (h : s.Tidy) (call : Call) (dropping : call = .drop → s.stop = true) : (s.conclude call).2.Tidy := by
  cases call with
  | tryWrite bytes =>
    change (s.tryWrite bytes).2.Tidy
    obtain ⟨hsame, -⟩ | ⟨hfree, -, hasked⟩ := h.tryWrite_cases bytes
    · rwa [hsame]
    · rw [hasked]
      exact h.asking hfree rfl
  | tryRead length =>
    change (s.tryRead length).2.Tidy
    obtain ⟨error, hsame⟩ | ⟨k, -, htaken⟩ | ⟨hfree, maximum, hasked⟩ := h.tryRead_cases length
    · rwa [hsame]
    · rw [htaken]
      exact h.kept rfl rfl rfl rfl
    · rw [hasked]
      exact h.asking hfree rfl
  | tryRecover =>
    change s.tryRecover.2.Tidy
    rwa [h.recover]
  | openStatus | snapshot | retire => exact h
  | tryShutdown =>
    change s.tryShutdown.2.Tidy
    unfold tryShutdown
    split_ifs
    · exact h
    · exact h.join
  | drop =>
    have hj := h.join
    have hstop : s.join.stop = true := by
      unfold Session.join
      split_ifs <;> exact dropping rfl
    have hfaulty := hj.stopped hstop
    have hdropped : Tidy { s.join with owner := s.join.owner, completions := none, trace := s.join.trace } :=
      hj.faulted hfaulty hj.clean id (fun _ => hstop) (.inl rfl)
    exact ⟨hdropped.one, hdropped.asked, hdropped.answered, hdropped.early, hdropped.opened, hdropped.state, hdropped.stopped,
      hdropped.stopping, hdropped.ended, hdropped.clean, fun _ => hstop, hdropped.sound⟩

theorem fence_stop (s : Session) : s.fence.stop = true := by
  unfold fence
  dsimp only
  split_ifs <;> rfl

theorem trySend_stop (s : Session) (request : Request) : (s.trySend request).2.stop = s.stop := by
  unfold trySend
  split_ifs <;> rfl

theorem receive_stop (s : Session) : s.receive.stop = s.stop := by
  unfold receive
  split <;> rfl

theorem noticeFinished_stop (s : Session) : s.noticeFinished.stop = s.stop := by
  unfold noticeFinished
  split_ifs <;> rfl

theorem Tidy.begin (h : s.Tidy) (call : Call) : (s.begin call).Tidy := by
  unfold Session.begin
  split_ifs with hhome
  · cases call <;> exact h.standing nofun
  · exact h

theorem Tidy.advance (h : s.Tidy) : s.advance.Tidy := by
  have hfenced : s.stand.fenced = true → s.stop = true := fun hstand => h.stopping (.inr (.inr (.inr (.inr (.inr hstand)))))
  unfold Session.advance
  cases hstand : s.stand with
  | home => exact h
  | retiring call =>
    dsimp only
    split_ifs
    · exact h.fence.retired call (fence_stop s)
    · exact h.fence.standing fun _ => fence_stop s
  | hinting call =>
    have hstop : s.stop = true := hfenced (by rw [hstand]; rfl)
    exact (h.hinted hstop).retired call ((trySend_stop s _).trans hstop)
  | draining call =>
    exact h.receive.standing fun hcall => (receive_stop s).trans (hfenced (by rw [hstand]; exact hcall))
  | noticing call =>
    exact h.noticeFinished.standing fun hcall => (noticeFinished_stop s).trans (hfenced (by rw [hstand]; exact hcall))
  | concluding call =>
    refine (h.conclude call fun hdrop => hfenced ?_).standing nofun
    rw [hstand, hdrop]
    rfl

theorem Tidy.work (h : s.Tidy) (move : WorkerMove) : (s.work move).Tidy := by
  obtain hsame | hworked := s.work_cases move
  · rwa [hsame]
  · exact h.worked hworked

theorem Tidy.step (h : s.Tidy) (event : Event) : (s.step event).Tidy := by
  cases event with
  | call call => exact h.begin call
  | owner => exact h.advance
  | worker move => exact h.work move

end Session

end LabRuntime.Com
