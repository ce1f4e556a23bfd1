import LabRuntime.Runtime.HostMoves

/-! What every started send rests on: the measurement of the controller that computed it, and the recording gate. -/

namespace LabRuntime.Runtime

open Core (Inv Path Micro)

variable {σ : Type}

/-! ### Freshness -/

/-- No premise on a run at all. -/
def unconditional : Premises := { roomy := False, issued := False, native := fun _ => False, lasting := False }

theorem permits_unconditional (A : ByteTransport σ) (ops : List (Op σ)) : Permits unconditional A ops := by
  intro before op after _
  cases op with
  | output actuator command now => exact ⟨False.elim, False.elim⟩
  | manualOutput => exact False.elim
  | requireRecording => exact id
  | _ => trivial

/-- Every owner that calls reach holds the invariant, whatever the calls. -/
theorem run_inv_unconditional (A : ByteTransport σ) (ops : List (Op σ)) : Inv unconditional (run A ops).core :=
  run_inv A ops (permits_unconditional A ops)

/-- A send carries what a controller update proposed, while the measurement of the update may still be used and
its lease runs. -/
structure FreshSend (m : Calculation) (send : Send) : Prop where
  output : m.output = send.actuator
  lease : send.lease = some m.lease
  automatic : m.lease.owner = .automatic m.controller
  value : (m.update.output == send.value) = true
  good : m.sample.quality = .good
  unit : (m.referenceUnit == m.sample.unit) = true
  fresh : send.time < m.sample.freshnessTime + m.maxInputAge
  leased : send.time < m.lease.expires
  cadence : m.lastTick < m.time ∧ m.time - m.lastTick ≤ m.maxTickGap

/-- The host proposes for manual owners only. -/
def HostProposesManually (ops : List (Op σ)) : Prop :=
  ∀ k proposal now, Op.output k (.propose proposal) now ∈ ops → proposal.lease.owner.isManual = true

theorem freshSend_of_covers {P : Premises} {c : Core} {send : Send} {l : OutputLease} {n : ℕ} {m : Calculation}
    (hinv : Inv P c) (hlease : send.lease = some l) (hmem : (n, m) ∈ c.calculations)
    (hcovers : m.Covers send.actuator l send.value (send.time + 1)) : FreshSend m send := by
  obtain ⟨hgood, hunit, hfresh, hcadence, howner⟩ := (hinv.calculations n m hmem).2
  obtain ⟨houtput, rfl, hvalue, hdeadline, hleased⟩ := hcovers
  exact
    { output := houtput, lease := hlease, automatic := howner, value := hvalue, good := hgood, unit := hunit
      fresh := Nat.lt_of_succ_le (hdeadline.trans hfresh), leased := Nat.lt_of_succ_le hleased, cadence := hcadence }

/-- Every send of a controller's proposal, however long it was queued, is fresh; and every send under an
automatic lease is one, unless the host proposed under such a lease itself. -/
structure SendsFresh (ops : List (Op σ)) (s : Runtime σ) : Prop where
  fresh : ∀ send ∈ s.sends, send.safe = false →
    ∀ n m, send.attempt = some n → (n, m) ∈ s.calculations → FreshSend m send
  issued : HostProposesManually ops → ∀ send ∈ s.sends, send.safe = false →
    ∀ l, send.lease = some l → l.owner.isManual = false → ∃ n m, send.attempt = some n ∧ (n, m) ∈ s.calculations

theorem controller_sends_fresh (A : ByteTransport σ) (ops : List (Op σ)) : SendsFresh ops (run A ops) where
  fresh send hsend hsafe n m hattempt hmem := by
    have hinv := run_inv_unconditional A ops
    obtain ⟨-, l, hlease, htraced⟩ := hinv.sends send hsend hsafe
    exact freshSend_of_covers hinv hlease hmem (htraced.covered n m hattempt hmem)
  issued hmanual send hsend hsafe l hlease hauto := by
    let P : Premises := { roomy := False, issued := True, native := fun _ => False, lasting := False }
    have hpermits : Permits P A ops := by
      rintro before op after rfl
      cases op with
      | output actuator command now =>
        refine ⟨fun _ proposal hcommand => ?_, False.elim⟩
        subst hcommand
        exact hmanual actuator proposal now (by simp)
      | manualOutput => exact False.elim
      | requireRecording => exact id
      | _ => trivial
    obtain ⟨-, l', hlease', htraced⟩ := (run_inv A ops hpermits).sends send hsend hsafe
    obtain rfl := Option.some.inj (hlease.symm.trans hlease')
    exact htraced.issued trivial hauto

/-! ### The recording gate -/

/-- No recording is required anew. -/
def lasting : Premises := { roomy := False, issued := False, native := fun _ => False, lasting := True }

theorem tripped_micro {c c' : Core} (h : Micro lasting c c') (htrip : c.gate.Tripped) : c'.gate.Tripped := by
  cases h with
  | required anew => exact absurd trivial anew
  | credited => exact htrip
  | closed => exact htrip
  | failed => exact ⟨htrip.1, rfl⟩
  | _ => exact htrip

theorem tripped_path {c c' : Core} (h : Path lasting c c') (htrip : c.gate.Tripped) : c'.gate.Tripped := by
  induction h with
  | refl => exact htrip
  | tail _ hm ih => exact tripped_micro hm ih

/-- A gate that failed stays closed until recording is required again. -/
theorem tripped_run (A : ByteTransport σ) (ops later : List (Op σ)) (hlater : Op.requireRecording ∉ later)
    (htrip : (run A ops).requiredRecording.Tripped) : (run A (ops ++ later)).requiredRecording.Tripped := by
  induction later using List.reverseRecOn with
  | nil => rwa [List.append_nil]
  | append_singleton later op ih =>
    have hop : op ≠ .requireRecording := fun h => hlater (by simp [h])
    have hlasting : (run A (ops ++ later)).Permitted lasting op := by
      cases op with
      | output actuator command now => exact ⟨False.elim, False.elim⟩
      | manualOutput => exact False.elim
      | requireRecording => exact absurd rfl hop
      | _ => trivial
    have htrip := ih fun hmem => hlater (by simp [hmem])
    have hinv : Inv lasting _ := (run_inv_unconditional A (ops ++ later)).weaken id id
    rw [← List.append_assoc, run_snoc]
    exact tripped_path (step_evolves A _ op hlasting hinv) htrip

/-- A failed gate is closed. -/
theorem tripped_closed (A : ByteTransport σ) (ops : List (Op σ)) (htrip : (run A ops).requiredRecording.Tripped) :
    (run A ops).requiredRecording.isOpen = false := by
  refine Bool.eq_false_of_not_eq_true fun hopen => ?_
  have hsound : (run A ops).requiredRecording.failed = false := ((run_inv_unconditional A ops).gate hopen).2.1
  exact absurd htrip.2 (by simp [hsound])

/-! ### Safe sends under a failed gate -/

/-- No output is leased. -/
def Unleased (s : Runtime σ) : Prop := ∀ k a, s.outputs.get k = some a → a.snapshot.lease = none

theorem tickOutputWatchdog_idle {s : Runtime σ} {k : ActuatorId} {a : OutputAuthority} (now : ℕ) (hget : s.outputs.get k = some a)
    (hlease : a.snapshot.lease = none) : (tickOutputWatchdog now k).run s = (.ok (), s) := by
  have htick : a.tick now = (.ok (), a) := by
    unfold OutputAuthority.tick
    rw [hlease]
  have hsettle : (settle k (a.tick now) : Step σ Unit).run s = (.ok (), s) := by
    rw [htick]
    show ((.ok () : Except Abort Unit), ({ s with outputs := s.outputs.insert k a } : Runtime σ)) = _
    rw [OrderedMap.insert_get _ hget]
  unfold tickOutputWatchdog
  rw [Procedure.run_get_bind, hget]
  dsimp only
  rw [Procedure.run_bind_ok hsettle, Procedure.run_get_bind, hget]
  exact congrArg (fun x : Step σ Unit => x.run s) (if_pos rfl)

/-- Without a lease no watchdog has anything to do. -/
theorem checkOutputTime_idle {s : Runtime σ} {now : ℕ} (hidle : s.Unleased) (htime : s.outputTime ≤ now) :
    (checkOutputTime now).run s = (.ok (), { s with outputTime := now }) := by
  have hkeys : ∀ ks : List ActuatorId, ∀ s : Runtime σ, s.Unleased → (∀ k ∈ ks, k ∈ s.outputs.keys) →
      (Procedure.forEach ks (tickOutputWatchdog now)).run s = (.ok (), s) := by
    intro ks s hidle hknown
    induction ks with
    | nil => rfl
    | cons k ks ih =>
      obtain ⟨a, hget⟩ := Option.isSome_iff_exists.1 ((OrderedMap.mem_keys _).1 (hknown k List.mem_cons_self))
      rw [Procedure.forEach_cons, Procedure.run_bind_ok (tickOutputWatchdog_idle now hget (hidle k a hget))]
      exact ih fun k' hk' => hknown k' (List.mem_cons_of_mem _ hk')
  unfold checkOutputTime
  rw [Procedure.run_get_bind]
  simp only [if_neg (not_lt.2 htime)]
  exact hkeys s.outputs.keys { s with outputTime := now } hidle fun k hk => hk

theorem recordingFailure_tripped {s : Runtime σ} (htrip : s.requiredRecording.Tripped) (now : ℕ) : s.recordingFailure now = s := by
  unfold recordingFailure
  rw [if_pos (.inr htrip.2)]

theorem serviceRequiredRecordingDeadline_tripped {s : Runtime σ} (htrip : s.requiredRecording.Tripped) (now : ℕ) :
    s.serviceRequiredRecordingDeadline now = s := by
  unfold serviceRequiredRecordingDeadline
  simp only [recordingFailure_tripped htrip, ite_self]

/-- An output waits for its safe value, and nothing of it is under way. -/
structure AwaitsSafe (a : OutputAuthority) (profile : SafeProfile) : Prop where
  state : a.snapshot.state = .safePending
  profile : a.snapshot.profile = some profile
  obligation : a.safeObligationPending = true
  unblocked : a.ambiguousSafeResendBlocked = false
  settled : a.snapshot.inFlight = none
  unreserved : a.transportReserved = none
  counter : a.nextDispatch < u64Max

theorem AwaitsSafe.begins {a : OutputAuthority} {profile : SafeProfile} (h : AwaitsSafe a profile) (now : ℕ) :
    ∃ d, (a.command .beginDispatch now).1 = .ok (.dispatched d) ∧ d.safe = true ∧ d.value = profile.safeValue := by
  have hnext : checkedAdd a.nextDispatch 1 = some (a.nextDispatch + 1) := checkedAdd_eq_some.2 ⟨rfl, h.counter⟩
  have hprofile : a.profile = .ok profile := OutputAuthority.profile_ok.2 h.profile
  have hidle : ¬ (a.snapshot.inFlight.isSome = true ∨ a.transportReserved.isSome = true) := by simp [h.settled, h.unreserved]
  have hblocked : ¬ a.ambiguousSafeResendBlocked = true := by simp [h.unblocked]
  refine ⟨{ id := { instanceId := a.instanceId, sequence := a.nextDispatch }, value := profile.safeValue, safe := true,
            epoch := a.snapshot.epoch }, ?_, rfl, rfl⟩
  show (a.begin now).1 = _
  unfold OutputAuthority.begin
  rw [if_neg hidle, if_pos h.obligation, if_neg hblocked, hprofile, hnext]

/-- Under a failed gate a safe send still starts. -/
theorem safe_send_starts {s : Runtime σ} (A : ByteTransport σ) {k : ActuatorId} {a : OutputAuthority} {profile : SafeProfile} {now : ℕ}
    (hidle : s.Unleased) (htrip : s.requiredRecording.Tripped) (hget : s.outputs.get k = some a)
    (h : AwaitsSafe a profile) (htime : s.outputTime ≤ now) :
    ∃ send, (step A s (.output k .beginDispatch now)).sends = s.sends ++ [send] ∧ send.actuator = k ∧ send.safe = true ∧
      send.value = profile.safeValue ∧ send.time = now := by
  obtain ⟨d, hbegins, hsafe, hvalue⟩ := h.begins now
  have hordinary : s.ordinary k .beginDispatch = false := by simp [ordinary, hget, h.state]
  have hcontains : s.outputs.contains k = true := (OrderedMap.contains_iff _).2 ⟨a, hget⟩
  have hwarming : (interruptWarming k .beginDispatch).run ({ s with outputTime := now } : Runtime σ) =
      (.ok (), { s with outputTime := now }) := by
    unfold interruptWarming
    rw [Procedure.run_get_bind]
    split_ifs <;> rfl
  have hcore : ((output k .beginDispatch now).run s).2.core =
      ((settleCommand k .beginDispatch none now).run ({ s with outputTime := now } : Runtime σ)).2.core := by
    unfold output
    rw [Procedure.run_modify_bind, serviceRequiredRecordingDeadline_tripped htrip, Procedure.run_get_bind]
    simp only [hordinary, Bool.false_eq_true, if_false]
    rw [Procedure.run_get_bind]
    simp only [hcontains, Bool.not_true, Bool.false_eq_true, if_false]
    rw [Procedure.run_bind_ok (checkOutputTime_idle hidle htime), Procedure.run_bind_ok hwarming]
    rfl
  refine ⟨{ actuator := k, dispatch := d.id, safe := d.safe, value := d.value
            lease := if d.safe then none else a.pending.map Pending.lease, attempt := s.outputAttempts.get k
            time := now, gate := s.requiredRecording, overflowed := s.recordingFacts.overflowed }, ?_, rfl, hsafe, hvalue, rfl⟩
  have hget' : ({ s with outputTime := now } : Runtime σ).outputs.get k = some a := hget
  have hbegun := settleCommand_begun hget' hbegins
  show ((discarding (output k .beginDispatch now)).run s).2.core.sends = _
  unfold discarding
  rw [Procedure.run_bind_pure, hcore, hbegun]

/-! ### Gated sends -/

/-- What a required recording gates. -/
structure RecordingGates (A : ByteTransport σ) (ops : List (Op σ)) : Prop where
  gated : ∀ send ∈ (run A ops).sends, send.safe = false → send.gate.enabled = true →
    send.gate.isOpen = true ∧ send.overflowed = false ∧
      ∃ submitted, send.gate.confirmedSubmission = some submitted ∧ send.time < submitted + requiredProgressAge
  lasting : ∀ before later, ops = before ++ later → (run A before).requiredRecording.Tripped →
    Op.requireRecording ∉ later → (run A ops).requiredRecording.Tripped
  closed : (run A ops).requiredRecording.Tripped → (run A ops).requiredRecording.isOpen = false
  unleased : (run A ops).requiredRecording.Tripped → (run A ops).Unleased
  stopped : (run A ops).requiredRecording.Tripped →
    ∀ id x, (run A ops).controllers.get id = some x → x.state.live = false
  safe : (run A ops).requiredRecording.Tripped → ∀ k a profile now, (run A ops).outputs.get k = some a →
    AwaitsSafe a profile → (run A ops).outputTime ≤ now →
      ∃ send, (step A (run A ops) (.output k .beginDispatch now)).sends = (run A ops).sends ++ [send] ∧
        send.actuator = k ∧ send.safe = true ∧ send.value = profile.safeValue ∧ send.time = now

/-- No simulated start meets an outbox that overflows with the facts of the watchdogs it serves. -/
def StartsFit (A : ByteTransport σ) (ops : List (Op σ)) : Prop :=
  History.Hitherto (fun before op => ∀ k now, op = .output k .beginDispatch now →
    (((run A before).serviceRequiredRecordingDeadline now).serviceRequiredRecordingDeadline now).WatchdogsFit now) ops

/-- An adapter that never moves a byte. -/
def noTransport : ByteTransport Unit where
  tryWrite s _ := (.ok 0, s)
  tryRead s length := (.ok 0, Vector.replicate length 0, s)
  tryRecover s := (.ok .complete, s)
  tryShutdown s := (.complete, s)

def benchHeater : ParameterDescriptor :=
  { id := heaterPower, name := "heater", valueSpec := .float F64.zero (F64.ofInt 100), unit := .percent
    access := .readWrite, role := .actuator, writeEffect := .outputAffecting, signal := none }

def bench (id : InstrumentId) : NativeInstrument :=
  { descriptor := { id := id, name := "bench", parameters := [benchHeater] }, signals := .empty }

def benchOutput (id : InstrumentId) : ActuatorId := { instrument := id, parameter := heaterPower }

def benchProfile : SafeProfile :=
  { min := F64.zero, max := F64.ofInt 100, safeValue := F64.zero, maxLease := fromSecs 1, maxProposalTtl := fromSecs 1
    requiredEvidence := .readback }

/-- The calls that arm the output of a bench under its `id`th authority for a lifetime. -/
def arming (id : InstrumentId) (lifetime : ℕ) : List (Op Unit) :=
  [.output (benchOutput id) (.bindProfile benchProfile) 0, .output (benchOutput id) .requestSafe 0,
    .output (benchOutput id) .beginDispatch 0,
    .output (benchOutput id) (.complete { instanceId := id, sequence := 1 } .readbackVerified) 0,
    .output (benchOutput id) (.acquire (.manual 1) lifetime) 0]

def benchLease (id : InstrumentId) (lifetime : ℕ) : OutputLease :=
  { actuator := benchOutput id, instanceId := id, owner := .manual 1, epoch := 3, expires := lifetime }

/-- A required recording, two armed outputs, an outbox that has room for `room` facts, and one send. -/
def crowdedBench (room : ℕ) : List (Op Unit) :=
  [.enableRecordingFacts, .requireRecording, .confirmRecordingStart 0 0, .registerVirtual (bench 1) benchHeater,
    .registerVirtual (bench 2) benchHeater] ++ arming 1 (fromSecs 1) ++ arming 2 1 ++
  [.takeRecordingFacts,
    .nativeWork
      { virtualInstruments := .empty, thermalPlants := .empty, managed := []
        facts := List.replicate (maxRecordingFacts - room)
          (256, fun sequence => .reference sequence 1 1 F64.zero none none .percent 0) },
    .output (benchOutput 1)
      (.propose { lease := benchLease 1 (fromSecs 1), value := .float F64.zero, unit := .percent, ttl := fromSecs 1 }) 0,
    .output (benchOutput 1) .beginDispatch 1]

theorem roomy_bench_starts_fit : StartsFit noTransport (crowdedBench 6) := by
  unfold StartsFit crowdedBench arming
  simp only [List.cons_append, List.nil_append, History.hitherto_cons, History.hitherto_nil, reduceCtorEq, false_implies,
    implies_true, true_and, and_true, Op.output.injEq, and_false, false_and]
  refine ⟨?_, ?_, ?_⟩
  all_goals
    rintro k now ⟨rfl, -, rfl⟩
    decide +kernel

end LabRuntime.Runtime
