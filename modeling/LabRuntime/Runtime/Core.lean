import Mathlib.Logic.Relation
import LabRuntime.Output.Lease
import LabRuntime.Runtime.Machine

/-! What permits and starts sends, and everything the owner can do to it in one move. `Micro` lists the
moves with their guards; `Inv` holds in every owner that moves by them. -/

namespace LabRuntime

/-- The part of the owner that leases, sends and the recording gate depend on. -/
structure Core where
  outputs : OrderedMap ActuatorId OutputAuthority
  controllers : OrderedMap ControllerId NativeController
  gate : RequiredGate
  sends : List Send
  calculations : List (ℕ × Calculation)
  attempts : OrderedMap ActuatorId ℕ
  nextAttempt : ℕ
  nextInstance : ℕ

def Runtime.core {σ : Type} (s : Runtime σ) : Core :=
  { outputs := s.outputs, controllers := s.controllers, gate := s.requiredRecording, sends := s.sends
    calculations := s.calculations, attempts := s.outputAttempts, nextAttempt := s.nextOutputAttempt
    nextInstance := s.nextInstance }

/-! ### What a move is measured by -/

/-- Ordinary sends are allowed at a time. -/
def RequiredGate.Permits (gate : RequiredGate) (now : ℕ) : Prop :=
  gate.enabled = true → gate.isOpen = true ∧ ∃ deadline, gate.validUntil = some deadline ∧ now < deadline

/-- The gate failed and no new recording is required yet. -/
def RequiredGate.Tripped (gate : RequiredGate) : Prop := gate.enabled = true ∧ gate.failed = true

/-- A controller update came from a fresh, Good measurement in the unit of the reference, in cadence. -/
structure Calculation.Sound (calculation : Calculation) : Prop where
  good : calculation.sample.quality = .good
  unit : (calculation.referenceUnit == calculation.sample.unit) = true
  fresh : calculation.time + calculation.ttl ≤ calculation.sample.freshnessTime + calculation.maxInputAge
  cadence : calculation.lastTick < calculation.time ∧
    calculation.time - calculation.lastTick ≤ calculation.maxTickGap
  owner : calculation.lease.owner = .automatic calculation.controller

/-- What is pending, reserved or sent until `deadline` is what the update proposed. -/
structure Calculation.Covers (calculation : Calculation) (actuator : ActuatorId) (lease : OutputLease) (value : F64)
    (deadline : ℕ) : Prop where
  output : calculation.output = actuator
  held : calculation.lease = lease
  value : (calculation.update.output == value) = true
  fresh : deadline ≤ calculation.time + calculation.ttl
  leased : deadline ≤ lease.expires

/-- Assumptions on a run: no overflow is outstanding at an ordinary simulated send, every proposal under an
automatic lease is a controller's, no manual write is delivered at the native actuators, and no recording is
required anew. -/
structure Premises where
  roomy : Prop
  issued : Prop
  native : ActuatorId → Prop
  lasting : Prop

namespace Core

/-- The lease of a controller, in the registry or out of it, is its own, and lies within the profile it was
acquired under. -/
def Owned (c : Core) (x : NativeController) : Prop :=
  ∀ l, x.lease = some l → l.owner = .automatic x.config.id ∧ l.actuator = x.config.output ∧
    l.instanceId < c.nextInstance ∧ ∀ a, c.outputs.get x.config.output = some a → a.instanceId = l.instanceId →
      l.epoch ≤ a.permission.epoch ∧ (l.epoch = a.permission.epoch →
        ∃ p, a.permission.profile = some p ∧ 0 < x.config.leaseLifetime ∧ x.config.leaseLifetime ≤ p.maxLease)

end Core

/-- The calls that neither give a lease nor queue, reserve or start a send. -/
def AuthorityOp.plain : AuthorityOp → Bool
  | .command (.acquire ..) | .command (.propose _) | .command .beginDispatch | .reserveTransport .. | .beginTransport _
  | .trackManualAttempt .. => false
  | _ => true

theorem OutputAuthority.trackManualAttempt_permission {a a' : OutputAuthority} {id : ℕ} {virtualSimulation : Bool}
    (h : a.trackManualAttempt id virtualSimulation = some a') : a'.permission = a.permission := by
  unfold OutputAuthority.trackManualAttempt at h
  obtain ⟨requested, -, rfl⟩ := Option.map_eq_some_iff.1 h
  rfl

/-- What a delivery makes of an authority that accepts its proposal: a manual write is tracked beside it. -/
def Premises.Proposes (P : Premises) (k : ActuatorId) (a a' : OutputAuthority) (proposal : OutputProposal) (now id : ℕ) : Prop :=
  a' = a.step ⟨.command (.propose proposal), now⟩ ∨ ¬ P.native k ∧ ∃ virtualSimulation,
    (a.step ⟨.command (.propose proposal), now⟩).trackManualAttempt id virtualSimulation = some a'

theorem Premises.Proposes.after {P : Premises} {k : ActuatorId} {a a' : OutputAuthority} {proposal : OutputProposal} {now id : ℕ}
    (h : P.Proposes k a a' proposal now id) : a'.permission = (a.step ⟨.command (.propose proposal), now⟩).permission := by
  rcases h with rfl | ⟨-, _, h⟩
  · rfl
  · exact OutputAuthority.trackManualAttempt_permission h

/-! ### The moves -/

/-- One move of the owner, with what it has checked. -/
inductive Core.Micro (P : Premises) (c : Core) : Core → Prop
  | called {k a a' call} (hget : c.outputs.get k = some a) (after : a' = a.step call)
    (plain : call.op.plain = true ∨ (a.apply call).1.toOption = none) :
    Micro P c { c with outputs := c.outputs.insert k a' }
  | acquired {k a owner lifetime now} (hget : c.outputs.get k = some a)
    (gate : c.gate.enabled = true → c.gate.isOpen = true) :
    Micro P c { c with outputs := c.outputs.insert k (a.step ⟨.command (.acquire owner lifetime), now⟩) }
  | reserved {k a queueDeadline generation revision now} (hget : c.outputs.get k = some a) :
    Micro P c { c with
      outputs := c.outputs.insert k (a.step ⟨.reserveTransport queueDeadline (c.attempts.get k) generation revision, now⟩) }
  | proposed {k a a' proposal now} {calculation : Option Calculation} (hget : c.outputs.get k = some a)
    (proposes : P.Proposes k a a' proposal now (c.nextAttempt + 1))
    (accepted : (a.apply ⟨.command (.propose proposal), now⟩).1 = .ok (.result .queued))
    (computed : ∀ m, calculation = some m → m.Sound ∧ m.output = k ∧ m.lease = proposal.lease ∧
      proposal.value = .float m.update.output ∧ proposal.ttl = m.ttl ∧ m.time = now)
    (issued : P.issued → calculation = none → proposal.lease.owner.isManual = true) :
    Micro P c { c with
      outputs := c.outputs.insert k a', attempts := c.attempts.insert k (c.nextAttempt + 1)
      nextAttempt := c.nextAttempt + 1
      calculations := c.calculations ++ (calculation.map fun m => (c.nextAttempt + 1, m)).toList }
  | counted : Micro P c { c with nextAttempt := c.nextAttempt + 1 }
  | attempted {k n} (bound : n ≤ c.nextAttempt)
    (idle : ∀ a, c.outputs.get k = some a → a.permission.pending = none) :
    Micro P c { c with attempts := c.attempts.insert k n }
  | begun {k a now d overflowed} (hget : c.outputs.get k = some a)
    (accepted : (a.apply ⟨.command .beginDispatch, now⟩).1 = .ok (.result (.dispatched d)))
    (gate : d.safe = false → c.gate.Permits now)
    (roomy : P.roomy → d.safe = false → c.gate.enabled = true → overflowed = false) :
    Micro P c { c with
      outputs := c.outputs.insert k (a.step ⟨.command .beginDispatch, now⟩)
      sends := c.sends ++
        [{ actuator := k, dispatch := d.id, safe := d.safe, value := d.value,
           lease := if d.safe then none else a.pending.map Pending.lease, attempt := c.attempts.get k, time := now,
           gate := c.gate, overflowed := overflowed }] }
  | sent {k a i now id overflowed} (hget : c.outputs.get k = some a) (actuator : i.actuator = k)
    (accepted : (a.apply ⟨.beginTransport i, now⟩).1 = .ok (.dispatched id))
    (gate : i.safe = false → c.gate.Permits now)
    (roomy : i.safe = false → c.gate.enabled = true → overflowed = false) :
    Micro P c { c with
      outputs := c.outputs.insert k (a.step ⟨.beginTransport i, now⟩)
      sends := c.sends ++
        [{ actuator := k, dispatch := id, safe := i.safe, value := i.value, lease := i.lease, attempt := i.attemptId,
           time := now, gate := c.gate, overflowed := overflowed }] }
  | required {generation} (anew : ¬ P.lasting) : Micro P c { c with
      gate := { enabled := true, isOpen := false, failed := false, generation := generation, validUntil := none,
                confirmedSubmission := none } }
  | credited {submitted} (enabled : c.gate.enabled = true) (sound : c.gate.failed = false) : Micro P c { c with
      gate := { c.gate with
        isOpen := true, validUntil := some (submitted + requiredProgressAge), confirmedSubmission := some submitted } }
  | closed : Micro P c { c with gate := { c.gate with isOpen := false, validUntil := none } }
  | failed {outputs controllers}
    (tripped : ∀ k a', outputs.get k = some a' →
      ∃ a now, c.outputs.get k = some a ∧ a' = a.step ⟨.command .trip, now⟩)
    (stopped : ∀ id x', controllers.get id = some x' →
      ∃ x, c.controllers.get id = some x ∧ x' = if x.state.live then x.fail else x) :
    Micro P c { c with
      outputs := outputs, controllers := controllers
      gate := { c.gate with isOpen := false, failed := true, validUntil := none } }
  | dropped {id} : Micro P c { c with controllers := c.controllers.remove id }
  | stored {id x} (hid : x.config.id = id) (owned : c.Owned x) (live : x.state.live = true → ¬ c.gate.Tripped) :
    Micro P c { c with controllers := c.controllers.insert id x }
  | relabelled {k state} (dead : ControllerState.live state = false) : Micro P c { c with
      controllers := c.controllers.mapValues fun x =>
        if x.state = .warming ∧ x.config.output = k then { x with state := state } else x }
  | installed {es n} (later : c.nextInstance ≤ n)
    (fresh : ∀ e ∈ es, ∃ id limits unit, c.nextInstance ≤ id ∧ id < n ∧ e.2 = OutputAuthority.new id e.1 limits unit) :
    Micro P c { c with outputs := c.outputs.extend es, nextInstance := n }
  | removed {k} : Micro P c { c with outputs := c.outputs.remove k, attempts := c.attempts.remove k }

/-! ### The invariant -/

namespace Core

variable {P : Premises} {c c' : Core}

/-- What is queued or sent under an attempt is what the update of that attempt proposed, if one did. -/
structure Traced (P : Premises) (c : Core) (k : ActuatorId) (attempt : Option ℕ) (lease : OutputLease) (value : F64)
    (deadline : ℕ) : Prop where
  numbered : ∃ n, attempt = some n ∧ n ≤ c.nextAttempt
  covered : ∀ n m, attempt = some n → (n, m) ∈ c.calculations → m.Covers k lease value deadline
  issued : P.issued → lease.owner.isManual = false → ∃ n m, attempt = some n ∧ (n, m) ∈ c.calculations

/-- The gate of an ordinary send let it pass. -/
def Gated (P : Premises) (send : Send) : Prop :=
  send.gate.enabled = true → send.gate.isOpen = true ∧ (P.roomy → send.overflowed = false) ∧
    ∃ submitted, send.gate.confirmedSubmission = some submitted ∧ send.time < submitted + requiredProgressAge

structure Inv (P : Premises) (c : Core) : Prop where
  wf : ∀ k a, c.outputs.get k = some a →
    a.permission.Wf ∧ a.actuator = k ∧ a.instanceId < c.nextInstance
  gate : c.gate.isOpen = true → c.gate.enabled = true ∧ c.gate.failed = false ∧
    ∃ submitted, c.gate.confirmedSubmission = some submitted ∧ c.gate.validUntil = some (submitted + requiredProgressAge)
  tripped : c.gate.Tripped → (∀ k a, c.outputs.get k = some a → a.permission.lease = none) ∧
    ∀ id x, c.controllers.get id = some x → x.state.live = false
  owned : ∀ id x, c.controllers.get id = some x → x.config.id = id ∧ c.Owned x
  calculations : ∀ n m, (n, m) ∈ c.calculations → n ≤ c.nextAttempt ∧ m.Sound
  pending : ∀ k a q, c.outputs.get k = some a → a.permission.pending = some q →
    Traced P c k (c.attempts.get k) q.lease q.value q.expires
  reserved : ∀ k a i, c.outputs.get k = some a → a.permission.reserved = some i → i.safe = false →
    i.actuator = k ∧ ∃ l, i.lease = some l ∧ Traced P c k i.attemptId l i.value i.expires
  sends : ∀ send ∈ c.sends, send.safe = false → Gated P send ∧
    ∃ l, send.lease = some l ∧ Traced P c send.actuator send.attempt l send.value (send.time + 1)

/-- How the outputs of a move come from those before: kept, stepped, or new. -/
def Advances (c c' : Core) : Prop :=
  c.nextInstance ≤ c'.nextInstance ∧ ∀ k a', c'.outputs.get k = some a' →
    (∃ a, c.outputs.get k = some a ∧ (a' = a ∨ ∃ call, a'.permission = (a.step call).permission)) ∨
      ∃ id limits unit, c.nextInstance ≤ id ∧ id < c'.nextInstance ∧ a' = OutputAuthority.new id k limits unit

theorem Advances.of_eq (h : c'.outputs = c.outputs) (hnext : c'.nextInstance = c.nextInstance) : Advances c c' :=
  ⟨hnext.ge, fun _ a' hget => .inl ⟨a', h ▸ hget, .inl rfl⟩⟩

theorem Advances.insert {k : ActuatorId} {a a' : OutputAuthority} {call : AuthorityCall} (hget : c.outputs.get k = some a)
    (after : a'.permission = (a.step call).permission) (houts : c'.outputs = c.outputs.insert k a')
    (hnext : c'.nextInstance = c.nextInstance) : Advances c c' := by
  refine ⟨hnext.ge, fun k' b hb => .inl ?_⟩
  rw [houts] at hb
  obtain ⟨rfl, rfl⟩ | hold := OrderedMap.get_insert_cases _ hb
  · exact ⟨a, hget, .inr ⟨call, after⟩⟩
  · exact ⟨b, hold, .inl rfl⟩

theorem Micro.advances (h : Micro P c c') : Advances c c' := by
  cases h with
  | called hget after => exact .insert hget (congrArg OutputAuthority.permission after) rfl rfl
  | acquired hget | reserved hget | begun hget | sent hget => exact .insert hget rfl rfl rfl
  | proposed hget proposes => exact .insert hget proposes.after rfl rfl
  | failed tripped =>
    refine ⟨le_rfl, fun k a' hget => .inl ?_⟩
    obtain ⟨a, now, ha, rfl⟩ := tripped k a' hget
    exact ⟨a, ha, .inr ⟨_, rfl⟩⟩
  | installed later fresh =>
    refine ⟨later, fun k a' hget => ?_⟩
    obtain hmem | hold := OrderedMap.get_extend_cases _ hget
    · obtain ⟨id, limits, unit, hlow, hhigh, heq⟩ := fresh _ hmem
      exact .inr ⟨id, limits, unit, hlow, hhigh, heq⟩
    · exact .inl ⟨a', hold, .inl rfl⟩
  | removed =>
    refine ⟨le_rfl, fun k' a' hget => .inl ⟨a', ?_, .inl rfl⟩⟩
    rw [OrderedMap.get_remove] at hget
    split_ifs at hget
    exact hget
  | _ => exact .of_eq rfl rfl

theorem Advances.wf (h : Advances c c')
    (hwf : ∀ k a, c.outputs.get k = some a → a.permission.Wf ∧ a.actuator = k ∧ a.instanceId < c.nextInstance)
    (k : ActuatorId) (a' : OutputAuthority) (hget : c'.outputs.get k = some a') :
    a'.permission.Wf ∧ a'.actuator = k ∧ a'.instanceId < c'.nextInstance := by
  obtain ⟨hnext, hadv⟩ := h
  obtain ⟨a, ha, rfl | ⟨call, hstep⟩⟩ | ⟨id, limits, unit, -, hid, rfl⟩ := hadv k a' hget
  · obtain ⟨hw, hk, hi⟩ := hwf k _ ha
    exact ⟨hw, hk, hi.trans_le hnext⟩
  · obtain ⟨hw, hk, hi⟩ := hwf k a ha
    obtain ⟨hinst, hact⟩ := a.step_identity call
    rw [← hstep] at hinst hact
    exact ⟨hstep ▸ OutputAuthority.wf_step a call hw, hact.trans hk, hinst.trans_lt (hi.trans_le hnext)⟩
  · exact ⟨OutputAuthority.wf_new _ _ _ _, rfl, hid⟩

/-- The lease of a controller stays its own whatever moves, also while it is out of the registry. -/
theorem Owned.advance {x : NativeController} (hx : c.Owned x) (h : Advances c c') : c'.Owned x := by
  intro l hl
  obtain ⟨howner, hact, hinst, hcur⟩ := hx l hl
  refine ⟨howner, hact, hinst.trans_le h.1, fun a' ha' hid => ?_⟩
  obtain ⟨a, ha, rfl | ⟨call, hstep⟩⟩ | ⟨id, limits, unit, hlow, -, rfl⟩ := h.2 _ a' ha'
  · exact hcur _ ha hid
  · have hsame : a.instanceId = l.instanceId := by
      have hident := (a.step_identity call).1
      rw [← hstep] at hident
      exact hident.symm.trans hid
    obtain ⟨hle, hprofile⟩ := hcur a ha hsame
    have hmono := (OutputAuthority.step_follows a call).epoch
    rw [hstep]
    refine ⟨hle.trans hmono, fun heq => ?_⟩
    -- the epoch did not move, so the profile did not either
    have hepoch : l.epoch = a.permission.epoch := le_antisymm hle (heq ▸ hmono)
    rw [OutputAuthority.step_profile (heq ▸ hepoch)]
    exact hprofile hepoch
  · exact absurd hid (by simp only [OutputAuthority.new]; omega)

/-- A later expiry makes no other lease of it. -/
theorem Owned.relet {x y : NativeController} (hx : c.Owned x) (hconfig : y.config = x.config)
    (hlease : ∀ l', y.lease = some l' → ∃ l e, x.lease = some l ∧ l' = { l with expires := e }) : c.Owned y := by
  intro l' hl'
  obtain ⟨l, e, hl, rfl⟩ := hlease l' hl'
  rw [hconfig]
  exact hx l hl

/-- How the numbered updates of a move come from those before: a new one has a new number. -/
def Numbers (c c' : Core) : Prop :=
  c.nextAttempt ≤ c'.nextAttempt ∧ (∀ e ∈ c.calculations, e ∈ c'.calculations) ∧
    ∀ e ∈ c'.calculations, e ∈ c.calculations ∨ c.nextAttempt < e.1

theorem Numbers.of_eq (h : c'.calculations = c.calculations) (hle : c.nextAttempt ≤ c'.nextAttempt) : Numbers c c' :=
  ⟨hle, fun _ he => h ▸ he, fun _ he => .inl (h ▸ he)⟩

theorem Micro.numbers (h : Micro P c c') : Numbers c c' := by
  cases h with
  | proposed =>
    refine ⟨Nat.le_succ _, fun e he => List.mem_append_left _ he, fun e he => ?_⟩
    rw [List.mem_append] at he
    refine he.imp_right fun hnew => ?_
    obtain ⟨m, -, rfl⟩ : ∃ m, _ ∧ (c.nextAttempt + 1, m) = e := by simpa using hnew
    exact Nat.lt_succ_self _
  | counted => exact .of_eq rfl (Nat.le_succ _)
  | _ => exact .of_eq rfl le_rfl

variable {k : ActuatorId} {attempt : Option ℕ} {lease : OutputLease} {value : F64} {deadline : ℕ}

theorem Traced.mono (h : Traced P c k attempt lease value deadline) (hnum : Numbers c c') :
    Traced P c' k attempt lease value deadline := by
  obtain ⟨n, hn, hle⟩ := h.numbered
  refine ⟨⟨n, hn, hle.trans hnum.1⟩, fun n' m hn' hm => ?_, fun hp hl => ?_⟩
  · obtain rfl : n' = n := Option.some.inj (hn'.symm.trans hn)
    refine h.covered n' m hn ((hnum.2.2 _ hm).resolve_right fun hlt => ?_)
    exact absurd hlt (not_lt.2 hle)
  · obtain ⟨n, m, hn, hm⟩ := h.issued hp hl
    exact ⟨n, m, hn, hnum.2.1 _ hm⟩

theorem Traced.sooner {value' : F64} {deadline' : ℕ} (h : Traced P c k attempt lease value deadline)
    (hvalue : (value == value') = true) (hle : deadline' ≤ deadline) : Traced P c k attempt lease value' deadline' := by
  refine ⟨h.numbered, fun n m hn hm => ?_, h.issued⟩
  have hc := h.covered n m hn hm
  exact ⟨hc.output, hc.held, F64.beq_trans hc.value hvalue, hle.trans hc.fresh, hle.trans hc.leased⟩

/-! ### The invariant is kept -/

theorem Inv.gate_micro (h : Inv P c) (hm : Micro P c c') (hopen : c'.gate.isOpen = true) :
    c'.gate.enabled = true ∧ c'.gate.failed = false ∧ ∃ submitted,
      c'.gate.confirmedSubmission = some submitted ∧ c'.gate.validUntil = some (submitted + requiredProgressAge) := by
  cases hm with
  | required | closed | failed => cases hopen
  | credited enabled sound => exact ⟨enabled, sound, _, rfl, rfl⟩
  | _ => exact h.gate hopen

/-- A new lease needs an open gate, so a tripped one stays without leases. -/
theorem Micro.unleased (hm : Micro P c c') (hinv : Inv P c) (htrip : c'.gate.Tripped) {k : ActuatorId}
    {a' : OutputAuthority} (hget : c'.outputs.get k = some a') : a'.permission.lease = none := by
  have hold : c.gate.Tripped → ∀ k a, c.outputs.get k = some a → a.permission.lease = none := fun h => (hinv.tripped h).1
  have hstep : ∀ {k₀ a a₀ call}, c.outputs.get k₀ = some a → a₀.permission = (a.step call).permission →
      (∀ owner lifetime, call.op = .command (.acquire owner lifetime) → (a.apply call).1.toOption = none) →
      c.gate.Tripped → (c.outputs.insert k₀ a₀).get k = some a' → a'.permission.lease = none := by
    intro k₀ a a₀ call ha hafter hop htrip hget
    obtain ⟨rfl, rfl⟩ | hget := OrderedMap.get_insert_cases _ hget
    · rw [hafter]
      exact OutputAuthority.step_unleased (hold htrip _ a ha) hop
    · exact hold htrip _ _ hget
  cases hm with
  | called ha after plain =>
    refine hstep ha (congrArg OutputAuthority.permission after) (fun owner lifetime hop => plain.resolve_left ?_) htrip hget
    simp [AuthorityOp.plain, hop]
  | acquired ha gate =>
    have hclosed := (hinv.gate (gate htrip.1)).2.1
    exact absurd htrip.2 (by simp [hclosed])
  | reserved ha | begun ha | sent ha => exact hstep ha rfl (fun _ _ hop => by cases hop) htrip hget
  | proposed ha proposes => exact hstep ha proposes.after (fun _ _ hop => by cases hop) htrip hget
  | required => cases htrip.2
  | credited enabled sound => exact absurd htrip.2 (by simp [sound])
  | failed tripped =>
    obtain ⟨a, now, ha, rfl⟩ := tripped _ _ hget
    exact OutputAuthority.trip_unleased (hinv.wf _ a ha).1 now
  | installed later fresh =>
    obtain hmem | hget := OrderedMap.get_extend_cases _ hget
    · obtain ⟨id, limits, unit, -, -, heq⟩ := fresh _ hmem
      rw [show a' = _ from heq]
      rfl
    · exact hold htrip _ _ hget
  | removed =>
    rw [OrderedMap.get_remove] at hget
    split_ifs at hget
    exact hold htrip _ _ hget
  | _ => exact hold htrip _ _ hget

/-- A controller may live only while the gate is not tripped. -/
theorem Micro.dead (hm : Micro P c c') (hinv : Inv P c) (htrip : c'.gate.Tripped) {id : ControllerId}
    {x : NativeController} (hget : c'.controllers.get id = some x) : x.state.live = false := by
  have hold : c.gate.Tripped → ∀ id x, c.controllers.get id = some x → x.state.live = false := fun h => (hinv.tripped h).2
  cases hm with
  | required => cases htrip.2
  | credited enabled sound => exact absurd htrip.2 (by simp [sound])
  | failed _ stopped =>
    obtain ⟨y, -, rfl⟩ := stopped _ _ hget
    split_ifs with hlive
    · rfl
    · exact Bool.eq_false_of_not_eq_true hlive
  | dropped =>
    rw [OrderedMap.get_remove] at hget
    split_ifs at hget
    exact hold htrip _ _ hget
  | stored hid owned live =>
    obtain ⟨rfl, rfl⟩ | hget := OrderedMap.get_insert_cases _ hget
    · exact Bool.eq_false_of_not_eq_true fun hl => live hl htrip
    · exact hold htrip _ _ hget
  | relabelled dead =>
    rw [OrderedMap.get_mapValues] at hget
    obtain ⟨y, hy, rfl⟩ := Option.map_eq_some_iff.1 hget
    split_ifs
    · exact dead
    · exact hold htrip _ _ hy
  | _ => exact hold htrip _ _ hget

theorem Micro.controllers (hm : Micro P c c') (hinv : Inv P c) {id : ControllerId} {x : NativeController}
    (hget : c'.controllers.get id = some x) : x.config.id = id ∧ c'.Owned x := by
  have hadv := hm.advances
  have hkeep : ∀ {id x}, c.controllers.get id = some x → x.config.id = id ∧ c'.Owned x := fun hget =>
    (hinv.owned _ _ hget).imp_right fun h => h.advance hadv
  cases hm with
  | failed _ stopped =>
    obtain ⟨y, hy, rfl⟩ := stopped _ _ hget
    split_ifs
    · exact ⟨(hinv.owned _ _ hy).1, fun l hl => by cases hl⟩
    · exact hkeep hy
  | dropped =>
    rw [OrderedMap.get_remove] at hget
    split_ifs at hget
    exact hkeep hget
  | stored hid owned =>
    obtain ⟨rfl, rfl⟩ | hget := OrderedMap.get_insert_cases _ hget
    · exact ⟨hid, owned.advance hadv⟩
    · exact hkeep hget
  | relabelled =>
    rw [OrderedMap.get_mapValues] at hget
    obtain ⟨y, hy, rfl⟩ := Option.map_eq_some_iff.1 hget
    obtain ⟨hid, howned⟩ := hkeep hy
    split_ifs
    · exact ⟨hid, howned⟩
    · exact ⟨hid, howned⟩
  | _ => exact hkeep hget

/-- A value in range is a value. -/
theorem range_finite {p : Permission} (hw : p.Wf) {q : Pending} (hq : p.pending = some q) : q.value.isNan = false := by
  have hlease := hw.queued q hq
  cases hp : p.profile with
  | none =>
    have hstate := (hw.unprofiled hp).1
    rw [hw.unarmed (by rw [hstate]; rfl)] at hlease
    cases hlease
  | some profile =>
    obtain ⟨lo, hi, -, -, -, hfinite, -, -⟩ := validate_float_ok (hw.range q profile hq hp)
    exact F64.isNan_of_isFinite hfinite

/-- The pending value of a stepped authority is the old one unless a proposal was accepted. -/
theorem pending_kept {a a' : OutputAuthority} {call : AuthorityCall} {q : Pending}
    (after : a'.permission = (a.step call).permission) (hq : a'.permission.pending = some q)
    (hop : ∀ proposal, call.op = .command (.propose proposal) → (a.apply call).1.toOption = none) :
    a.permission.pending = some q := by
  rw [after] at hq
  refine (OutputAuthority.pending_step hq).resolve_right ?_
  rintro ⟨proposal, hcall, hok, -⟩
  have hnone := hop proposal hcall
  rw [hok] at hnone
  cases hnone

/-- The reservation of a stepped authority is the old one unless an intent was issued. -/
theorem reserved_kept {a a' : OutputAuthority} {call : AuthorityCall} {i : OutputIntent}
    (after : a'.permission = (a.step call).permission) (hi : a'.permission.reserved = some i)
    (hop : ∀ deadline attemptId generation revision,
      call.op = .reserveTransport deadline attemptId generation revision → (a.apply call).1.toOption = none) :
    a.permission.reserved = some i := by
  rw [after] at hi
  refine (OutputAuthority.reserved_step hi).resolve_right ?_
  rintro ⟨⟨deadline, attemptId, generation, revision, hcall⟩, hok⟩
  have hnone := hop _ _ _ _ hcall
  rw [hok] at hnone
  cases hnone

theorem Inv.pending_micro (h : Inv P c) (hm : Micro P c c') {k : ActuatorId} {a' : OutputAuthority} {q : Pending}
    (hget : c'.outputs.get k = some a') (hq : a'.permission.pending = some q) :
    Traced P c' k (c'.attempts.get k) q.lease q.value q.expires := by
  have hnum := hm.numbers
  have hold : ∀ {k a}, c.outputs.get k = some a → a.permission.pending = some q →
      Traced P c' k (c.attempts.get k) q.lease q.value q.expires := fun ha hq => (h.pending _ _ _ ha hq).mono hnum
  have hstep : ∀ {k₀ a a₀ call}, c.outputs.get k₀ = some a → a₀.permission = (a.step call).permission →
      (∀ proposal, call.op = .command (.propose proposal) → (a.apply call).1.toOption = none) →
      (c.outputs.insert k₀ a₀).get k = some a' → Traced P c' k (c.attempts.get k) q.lease q.value q.expires := by
    intro k₀ a a₀ call ha hafter hop hget
    obtain ⟨rfl, rfl⟩ | hget := OrderedMap.get_insert_cases _ hget
    · exact hold ha (pending_kept hafter hq hop)
    · exact hold hget hq
  cases hm with
  | called ha after plain =>
    refine hstep ha (congrArg OutputAuthority.permission after) (fun proposal hop => plain.resolve_left ?_) hget
    simp [AuthorityOp.plain, hop]
  | acquired ha | reserved ha | begun ha | sent ha => exact hstep ha rfl (fun _ hop => by cases hop) hget
  | @proposed k₀ a a₀ proposal now calculation ha proposes accepted computed issued =>
    have after := proposes.after
    rw [OrderedMap.get_insert] at hget ⊢
    split_ifs at hget ⊢ with hk
    · subst hk
      obtain rfl := Option.some.inj hget
      have hnone : ¬ a.Revokes ⟨.command (.propose proposal), now⟩ := OutputAuthority.not_revokes rfl
      have hchange := OutputAuthority.step_change hnone
      rw [accepted, ← after] at hchange
      have hwf : a₀.permission.Wf := after ▸ OutputAuthority.wf_step a _ (h.wf _ a ha).1
      have hfinite := range_finite hwf hq
      generalize a₀.permission = p at hchange hq
      cases hchange with
      | queued holds hvalue profile range slot =>
        obtain rfl := Option.some.inj hq
        refine ⟨⟨_, rfl, le_rfl⟩, fun n m hn hm => ?_, fun hp hl => ?_⟩
        · obtain rfl := Option.some.inj hn
          obtain hold | hnew := List.mem_append.1 hm
          · exact absurd (h.calculations _ m hold).1 (by omega)
          · obtain ⟨-, hsome⟩ : True ∧ calculation = some m := by simpa using hnew
            obtain ⟨-, hout, hlease, hv, httl, htime⟩ := computed m hsome
            obtain rfl : _ = m.update.output := Value.float.inj (hvalue.symm.trans hv)
            exact ⟨hout, hlease, F64.beq_self hfinite, by rw [htime, ← httl]; exact min_le_left _ _, min_le_right _ _⟩
        · cases calculation with
          | none => exact absurd (issued hp rfl) (by simp [show proposal.lease.owner.isManual = false from hl])
          | some m => exact ⟨_, m, rfl, by simp⟩
      | renewed renews => obtain ⟨_, h | h⟩ := renews <;> cases h
      | completed _ completes => cases completes
    · exact hold hget hq
  | attempted bound idle =>
    rw [OrderedMap.get_insert]
    split_ifs with hk
    · subst hk
      cases (idle _ hget).symm.trans hq
    · exact hold hget hq
  | failed tripped =>
    obtain ⟨a, now, ha, rfl⟩ := tripped _ _ hget
    exact hold ha (pending_kept rfl hq fun _ hop => by cases hop)
  | installed later fresh =>
    obtain hmem | hget := OrderedMap.get_extend_cases _ hget
    · obtain ⟨id, limits, unit, -, -, heq⟩ := fresh _ hmem
      rw [show a' = _ from heq] at hq
      cases hq
    · exact hold hget hq
  | removed =>
    rw [OrderedMap.get_remove] at hget ⊢
    split_ifs at hget ⊢
    exact hold hget hq
  | _ => exact hold hget hq

theorem Inv.reserved_micro (h : Inv P c) (hm : Micro P c c') {k : ActuatorId} {a' : OutputAuthority} {i : OutputIntent}
    (hget : c'.outputs.get k = some a') (hi : a'.permission.reserved = some i) (hsafe : i.safe = false) :
    i.actuator = k ∧ ∃ l, i.lease = some l ∧ Traced P c' k i.attemptId l i.value i.expires := by
  have hnum := hm.numbers
  have hold : ∀ {k a}, c.outputs.get k = some a → a.permission.reserved = some i →
      i.actuator = k ∧ ∃ l, i.lease = some l ∧ Traced P c' k i.attemptId l i.value i.expires := by
    intro k a ha hi
    obtain ⟨hk, l, hl, htraced⟩ := h.reserved _ _ _ ha hi hsafe
    exact ⟨hk, l, hl, htraced.mono hnum⟩
  have hstep : ∀ {k₀ a a₀ call}, c.outputs.get k₀ = some a → a₀.permission = (a.step call).permission →
      (∀ deadline attemptId generation revision,
        call.op = .reserveTransport deadline attemptId generation revision → (a.apply call).1.toOption = none) →
      (c.outputs.insert k₀ a₀).get k = some a' →
      i.actuator = k ∧ ∃ l, i.lease = some l ∧ Traced P c' k i.attemptId l i.value i.expires := by
    intro k₀ a a₀ call ha hafter hop hget
    obtain ⟨rfl, rfl⟩ | hget := OrderedMap.get_insert_cases _ hget
    · exact hold ha (reserved_kept hafter hi hop)
    · exact hold hget hi
  cases hm with
  | called ha after plain =>
    refine hstep ha (congrArg OutputAuthority.permission after) (fun _ _ _ _ hop => plain.resolve_left ?_) hget
    simp [AuthorityOp.plain, hop]
  | acquired ha | begun ha | sent ha => exact hstep ha rfl (fun _ _ _ _ hop => by cases hop) hget
  | proposed ha proposes => exact hstep ha proposes.after (fun _ _ _ _ hop => by cases hop) hget
  | @reserved k₀ a queueDeadline generation revision now ha =>
    obtain ⟨rfl, rfl⟩ | hget := OrderedMap.get_insert_cases _ hget
    · obtain hi | hissue := OutputAuthority.reserved_step hi
      · exact hold ha hi
      · -- a new intent takes over the pending value with the attempt it was proposed under
        obtain ⟨q, hq, hlease, hvalue, hle⟩ := hissue.pending hsafe
        obtain ⟨-, hok⟩ := hissue
        have hreply : (a.reserveTransport now queueDeadline (c.attempts.get k) generation revision).1 = .ok i := by
          simp only [OutputAuthority.apply, OutputAuthority.reply] at hok
          cases hres : (a.reserveTransport now queueDeadline (c.attempts.get k) generation revision).1 with
          | error e => simp [hres, Except.map] at hok
          | ok j =>
            rw [hres] at hok
            exact congrArg Except.ok (AuthorityReply.intent.inj (Except.ok.inj hok))
        obtain ⟨hattempt, hact, -, -⟩ := OutputAuthority.reserved_intent hreply
        refine ⟨hact.trans (h.wf _ a ha).2.1, q.lease, hlease, ?_⟩
        rw [hattempt, hvalue]
        exact ((h.pending _ a q ha hq).mono hnum).sooner (F64.beq_self (range_finite (h.wf _ a ha).1 hq)) hle
    · exact hold hget hi
  | failed tripped =>
    obtain ⟨a, now, ha, rfl⟩ := tripped _ _ hget
    exact hold ha (reserved_kept rfl hi fun _ _ _ _ hop => by cases hop)
  | installed later fresh =>
    obtain hmem | hget := OrderedMap.get_extend_cases _ hget
    · obtain ⟨id, limits, unit, -, -, heq⟩ := fresh _ hmem
      rw [show a' = _ from heq] at hi
      cases hi
    · exact hold hget hi
  | removed =>
    rw [OrderedMap.get_remove] at hget
    split_ifs at hget
    exact hold hget hi
  | _ => exact hold hget hi

theorem Inv.gated (h : Inv P c) {send : Send} (hgate : send.gate = c.gate) (permits : c.gate.Permits send.time)
    (roomy : P.roomy → c.gate.enabled = true → send.overflowed = false) : Gated P send := by
  intro henabled
  rw [hgate] at henabled ⊢
  obtain ⟨hopen, deadline, hdeadline, hlt⟩ := permits henabled
  obtain ⟨-, -, submitted, hsub, hvalid⟩ := h.gate hopen
  obtain rfl := Option.some.inj (hdeadline.symm.trans hvalid)
  exact ⟨hopen, fun hr => roomy hr henabled, submitted, hsub, hlt⟩

theorem Inv.sends_micro (h : Inv P c) (hm : Micro P c c') {send : Send} (hsend : send ∈ c'.sends)
    (hsafe : send.safe = false) :
    Gated P send ∧ ∃ l, send.lease = some l ∧
      Traced P c' send.actuator send.attempt l send.value (send.time + 1) := by
  have hnum := hm.numbers
  have hold : send ∈ c.sends → Gated P send ∧ ∃ l, send.lease = some l ∧
      Traced P c' send.actuator send.attempt l send.value (send.time + 1) := by
    intro hsend
    obtain ⟨hgated, l, hl, htraced⟩ := h.sends _ hsend hsafe
    exact ⟨hgated, l, hl, htraced.mono hnum⟩
  cases hm with
  | @begun k a now d overflowed hget accepted gate roomy =>
    obtain hsend | hnew := List.mem_append.1 hsend
    · exact hold hsend
    · obtain rfl := List.mem_singleton.1 hnew
      have hdsafe : d.safe = false := hsafe
      refine ⟨h.gated rfl (gate hsafe) fun hr => roomy hr hsafe, ?_⟩
      have hnone : ¬ a.Revokes ⟨.command .beginDispatch, now⟩ := OutputAuthority.not_revokes rfl
      have hchange := OutputAuthority.step_change hnone
      rw [accepted] at hchange
      generalize (a.step ⟨_, now⟩).permission = p at hchange
      cases hchange with
      | begun settled reservation id epoch source =>
        obtain ⟨-, -, hsafe', -⟩ | ⟨-, -, q, hq, -, hlt, hvalue⟩ := source
        · cases hdsafe.symm.trans hsafe'
        · have hpending : a.pending = some q := hq
          have hbeq : (q.value == d.value) = true := by
            rw [hvalue]
            exact F64.beq_self (range_finite (h.wf k a hget).1 hq)
          exact ⟨q.lease, by simp [hdsafe, hpending], ((h.pending k a q hget hq).mono hnum).sooner hbeq hlt⟩
      | completed _ completes => cases completes
      | renewed renews => obtain ⟨_, h | h⟩ := renews <;> cases h
  | @sent k a i now id overflowed hget hact accepted gate roomy =>
    obtain hsend | hnew := List.mem_append.1 hsend
    · exact hold hsend
    · obtain rfl := List.mem_singleton.1 hnew
      have hisafe : i.safe = false := hsafe
      refine ⟨h.gated rfl (gate hisafe) fun _ => roomy hisafe, ?_⟩
      have hnone : ¬ a.Revokes ⟨.beginTransport i, now⟩ := OutputAuthority.not_revokes rfl
      have hchange := OutputAuthority.step_change hnone
      rw [accepted] at hchange
      generalize (a.step ⟨_, now⟩).permission = p at hchange
      cases hchange with
      | @sent _ j d _ settled reservation same epoch fresh =>
        obtain ⟨-, hattempt, -, hlease, -, hvalue, -, hexpires, hjsafe, -, -⟩ := (OutputIntent.beq_iff j i).1 same
        obtain ⟨-, l, hl, htraced⟩ := h.reserved k a j hget reservation (hjsafe.trans hisafe)
        rw [hattempt, hexpires] at htraced
        exact ⟨l, hlease.symm.trans hl, (htraced.mono hnum).sooner hvalue fresh⟩
      | completed _ completes => cases completes
      | renewed renews => obtain ⟨_, h | h⟩ := renews <;> cases h
  | _ => exact hold hsend

theorem Inv.calculations_micro (h : Inv P c) (hm : Micro P c c') {n : ℕ} {m : Calculation}
    (hmem : (n, m) ∈ c'.calculations) : n ≤ c'.nextAttempt ∧ m.Sound := by
  cases hm with
  | proposed _ _ _ computed =>
    obtain hold | hnew := List.mem_append.1 hmem
    · exact ⟨(h.calculations n m hold).1.trans (Nat.le_succ _), (h.calculations n m hold).2⟩
    · obtain ⟨m', hm', heq⟩ := Option.map_eq_some_iff.1 (Option.mem_toList.1 hnew)
      obtain ⟨rfl, rfl⟩ := Prod.mk.inj heq
      exact ⟨le_rfl, (computed m' hm').1⟩
  | counted => exact ⟨(h.calculations n m hmem).1.trans (Nat.le_succ _), (h.calculations n m hmem).2⟩
  | _ => exact h.calculations n m hmem

/-- Every move keeps the invariant. -/
theorem Inv.micro (h : Inv P c) (hm : Micro P c c') : Inv P c' where
  wf := hm.advances.wf h.wf
  gate := h.gate_micro hm
  tripped htrip := ⟨fun _ _ hget => hm.unleased h htrip hget, fun _ _ hget => hm.dead h htrip hget⟩
  owned _ _ hget := hm.controllers h hget
  calculations _ _ hmem := h.calculations_micro hm hmem
  pending _ _ _ hget hq := h.pending_micro hm hget hq
  reserved _ _ _ hget hi hsafe := h.reserved_micro hm hget hi hsafe
  sends _ hsend hsafe := h.sends_micro hm hsend hsafe

/-! ### Paths -/

/-- Any number of moves. -/
def Path (P : Premises) : Core → Core → Prop := Relation.ReflTransGen (Micro P)

theorem Path.inv (h : Path P c c') (hinv : Inv P c) : Inv P c' := by
  induction h with
  | refl => exact hinv
  | tail _ hm ih => exact ih.micro hm

theorem Path.owned (h : Path P c c') {x : NativeController} (hx : c.Owned x) : c'.Owned x := by
  induction h with
  | refl => exact hx
  | tail _ hm ih => exact ih.advance hm.advances

/-- Only the premises on what is recorded and proposed bear on the invariant. -/
theorem Inv.weaken {P' : Premises} (h : Inv P c) (hroomy : P'.roomy → P.roomy) (hissued : P'.issued → P.issued) : Inv P' c := by
  have htraced : ∀ {k attempt l value deadline}, Traced P c k attempt l value deadline →
      Traced P' c k attempt l value deadline := fun ht =>
    { numbered := ht.numbered, covered := ht.covered, issued := fun hp => ht.issued (hissued hp) }
  refine
    { wf := h.wf, gate := h.gate, tripped := h.tripped, owned := h.owned, calculations := h.calculations
      pending := fun k a q hget hq => htraced (h.pending k a q hget hq), reserved := ?_, sends := ?_ }
  · intro k a i hget hi hsafe
    obtain ⟨hk, l, hl, ht⟩ := h.reserved k a i hget hi hsafe
    exact ⟨hk, l, hl, htraced ht⟩
  · intro send hsend hsafe
    obtain ⟨hgated, l, hl, ht⟩ := h.sends send hsend hsafe
    refine ⟨fun henabled => ?_, l, hl, htraced ht⟩
    obtain ⟨hopen, hroom, hfresh⟩ := hgated henabled
    exact ⟨hopen, fun hp => hroom (hroomy hp), hfresh⟩

theorem inv_empty (σ : Type) : Inv P (Runtime.empty σ).core where
  wf k a hget := by cases hget
  gate hopen := by cases hopen
  tripped htrip := by cases htrip.1
  owned id x hget := by cases hget
  calculations n m hmem := by cases hmem
  pending k a q hget := by cases hget
  reserved k a i hget := by cases hget
  sends send hsend := by cases hsend

end Core
end LabRuntime
