import LabRuntime.Output.Receipt
import LabRuntime.Runtime.Sends

/-! Manual receipts over whole runs: an open one is reserved or in flight after every call, and a settled one stays
until a manual write of its authority replaces it. -/

namespace LabRuntime

namespace Core

open OutputAuthority (Handles)

variable {P : Premises} {c c' c'' : Core} {k : ActuatorId} {a a' a'' : OutputAuthority}

/-! ### Receipts and moves -/

/-- Where an authority came from in one move, as far as its receipt goes. -/
inductive Receives (P : Premises) (c c' : Core) (k : ActuatorId) (a' : OutputAuthority) : Prop
  | handled {a : OutputAuthority} (hget : c.outputs.get k = some a) (same : a'.instanceId = a.instanceId) (handles : Handles a a')
  | minted {id limits unit} (low : c.nextInstance ≤ id) (fresh : a' = OutputAuthority.new id k limits unit)
  | tracked {a b : OutputAuthority} {virtualSimulation} (written : ¬ P.native k) (hget : c.outputs.get k = some a)
    (same : b.instanceId = a.instanceId) (handles : Handles a b)
    (tracks : b.trackManualAttempt (c.nextAttempt + 1) virtualSimulation = some a')
    (counted : c'.nextAttempt = c.nextAttempt + 1)

theorem Micro.receives (hm : Micro P c c') (hinv : Inv P c) (hget : c'.outputs.get k = some a') : Receives P c c' k a' := by
  have hstay : c.outputs.get k = some a' → Receives P c c' k a' := fun ha =>
    .handled ha rfl (OutputAuthority.handles_refl a')
  have hstep : ∀ {a call}, c.outputs.get k = some a → a' = a.step call →
      (∀ id virtualSimulation, call.op ≠ .trackManualAttempt id virtualSimulation) → Receives P c c' k a' := by
    rintro a call ha rfl hop
    exact .handled ha (a.step_identity call).1 (OutputAuthority.step_handles (hinv.wf k a ha).1 call hop)
  have hinsert : ∀ {k₀ a a₀ call}, c.outputs.get k₀ = some a → a₀ = a.step call →
      (∀ id virtualSimulation, call.op ≠ .trackManualAttempt id virtualSimulation) →
      (c.outputs.insert k₀ a₀).get k = some a' → Receives P c c' k a' := by
    intro k₀ a a₀ call ha hafter hop hget
    obtain ⟨rfl, rfl⟩ | hget := OrderedMap.get_insert_cases _ hget
    · exact hstep ha hafter hop
    · exact hstay hget
  cases hm with
  | @called k₀ a a₀ call ha after plain =>
    refine hinsert ha after (fun id virtualSimulation hop => ?_) hget
    obtain hplain | hrefused := plain
    · simp [AuthorityOp.plain, hop] at hplain
    · -- the start of a manual write is never refused
      obtain ⟨op, now⟩ := call
      obtain rfl : op = .trackManualAttempt id virtualSimulation := hop
      simp [OutputAuthority.apply, Except.toOption] at hrefused
  | acquired ha | reserved ha | begun ha | sent ha => exact hinsert ha rfl (fun _ _ hop => by cases hop) hget
  | @proposed k₀ a a₀ proposal now calculation ha proposes =>
    obtain hafter | ⟨hwritten, virtualSimulation, htracks⟩ := proposes
    · exact hinsert ha hafter (fun _ _ hop => by cases hop) hget
    · obtain ⟨rfl, rfl⟩ | hget := OrderedMap.get_insert_cases _ hget
      · exact .tracked hwritten ha (a.step_identity _).1
          (OutputAuthority.step_handles (hinv.wf _ a ha).1 _ fun _ _ hop => by cases hop) htracks rfl
      · exact hstay hget
  | failed tripped =>
    obtain ⟨a, now, ha, hafter⟩ := tripped k a' hget
    exact hstep ha hafter fun _ _ hop => by cases hop
  | installed later fresh =>
    obtain hmem | hget := OrderedMap.get_extend_cases _ hget
    · obtain ⟨id, limits, unit, hlow, -, heq⟩ := fresh _ hmem
      exact .minted hlow heq
    · exact hstay hget
  | removed =>
    rw [OrderedMap.get_remove] at hget
    split_ifs at hget
    exact hstay hget
  | _ => exact hstay hget

/-- Every receipt has a number that was issued, and an open one that was sent is in flight. -/
structure Receipted (c : Core) : Prop where
  tracks : ∀ k a, c.outputs.get k = some a → a.Tracks
  numbered : ∀ k a t, c.outputs.get k = some a → a.snapshot.manualAttempt = some t → t.id ≤ c.nextAttempt

/-- The open receipt of one output is reserved for its transport queue. -/
def Queued (c : Core) (k : ActuatorId) : Prop := ∀ a, c.outputs.get k = some a → a.Queues

theorem tracked_attempt {b : OutputAuthority} {id : ℕ} {virtualSimulation : Bool}
    (h : b.trackManualAttempt id virtualSimulation = some a') :
    ∃ t, a'.snapshot.manualAttempt = some t ∧ t.id = id ∧ b.snapshot.requested = some t.requested ∧ t.dispatch = none ∧
      a'.pending = b.pending ∧ a'.instanceId = b.instanceId := by
  unfold OutputAuthority.trackManualAttempt at h
  obtain ⟨requested, hrequested, rfl⟩ := Option.map_eq_some_iff.1 h
  exact ⟨_, rfl, rfl, hrequested, rfl, rfl, rfl⟩

theorem follows_some {o o' : Option ManualOutputAttempt} {t' : ManualOutputAttempt}
    (h : Option.Rel ManualOutputAttempt.Follows o o') (ht : o' = some t') : ∃ t, o = some t ∧ t.Follows t' := by
  cases h with
  | none => cases ht
  | @some t u hfollows =>
    obtain rfl := Option.some.inj ht
    exact ⟨t, rfl, hfollows⟩

theorem Receipted.micro (h : Receipted c) (hm : Micro P c c') (hinv : Inv P c) : Receipted c' where
  tracks k a' hget := by
    cases hm.receives hinv hget with
    | handled ha _ handles => exact handles.tracks (h.tracks k _ ha)
    | minted _ fresh =>
      subst fresh
      intro t ht
      cases ht
    | tracked _ _ _ _ tracks =>
      obtain ⟨t, hattempt, -, -, hunsent, -⟩ := tracked_attempt tracks
      intro t' ht' _
      obtain rfl := Option.some.inj (hattempt.symm.trans ht')
      exact .inl hunsent
  numbered k a' t' hget ht' := by
    cases hm.receives hinv hget with
    | handled ha _ handles =>
      obtain ⟨t, ht, hfollows⟩ := follows_some handles.carries ht'
      rw [hfollows.id]
      exact (h.numbered k _ t ha ht).trans hm.numbers.1
    | minted _ fresh =>
      subst fresh
      cases ht'
    | tracked _ _ _ _ tracks counted =>
      obtain ⟨t, hattempt, hid, -⟩ := tracked_attempt tracks
      obtain rfl := Option.some.inj (hattempt.symm.trans ht')
      rw [hid, counted]

theorem Queued.micro (h : Queued c k) (hm : Micro P c c') (hinv : Inv P c) (hnative : P.native k) : Queued c' k := by
  intro a' hget
  cases hm.receives hinv hget with
  | handled ha _ handles => exact handles.queues (hinv.wf k _ ha).1 (h _ ha)
  | minted _ fresh =>
    subst fresh
    intro t ht
    cases ht
  | tracked written => exact absurd hnative written

/-! ### Receipts and runs -/

/-- What an authority may hold later: the receipt of the same authority, followed; or, in place of it, that of a new
authority or of a new manual write. -/
inductive Sequel (P : Premises) (c : Core) (k : ActuatorId) (a' : OutputAuthority) : Prop
  | carried {a : OutputAuthority} (hget : c.outputs.get k = some a) (same : a'.instanceId = a.instanceId)
    (carries : Option.Rel ManualOutputAttempt.Follows a.snapshot.manualAttempt a'.snapshot.manualAttempt)
  | fresh (minted : c.nextInstance ≤ a'.instanceId) (blank : P.native k → a'.snapshot.manualAttempt = none)
  | rewritten {a : OutputAuthority} {t'} (written : ¬ P.native k) (hget : c.outputs.get k = some a)
    (same : a'.instanceId = a.instanceId) (attempt : a'.snapshot.manualAttempt = some t') (new : c.nextAttempt < t'.id)

theorem Micro.sequel (hm : Micro P c c') (hinv : Inv P c) (hget : c'.outputs.get k = some a') : Sequel P c k a' := by
  cases hm.receives hinv hget with
  | handled ha same handles => exact .carried ha same handles.carries
  | minted low fresh =>
    subst fresh
    exact .fresh low fun _ => rfl
  | tracked written ha same _ tracks =>
    obtain ⟨t, hattempt, hid, -, -, -, hinst⟩ := tracked_attempt tracks
    exact .rewritten written ha (hinst.trans same) hattempt (by omega)

theorem follows_trans {o o' o'' : Option ManualOutputAttempt} (h : Option.Rel ManualOutputAttempt.Follows o o')
    (h' : Option.Rel ManualOutputAttempt.Follows o' o'') : Option.Rel ManualOutputAttempt.Follows o o'' := by
  cases h with
  | none => exact h'
  | some hfollows =>
    cases h' with
    | some hfollows' => exact .some (hfollows.trans hfollows')

theorem Sequel.trans (h : Sequel P c k a') (hget' : c'.outputs.get k = some a') (hnumbers : c.nextAttempt ≤ c'.nextAttempt)
    (hminted : c.nextInstance ≤ c'.nextInstance) (h' : Sequel P c' k a'') : Sequel P c k a'' := by
  cases h' with
  | fresh minted blank => exact .fresh (hminted.trans minted) blank
  | @carried b hb same carries =>
    obtain rfl := Option.some.inj (hget'.symm.trans hb)
    cases h with
    | carried ha same' carries' => exact .carried ha (same.trans same') (follows_trans carries' carries)
    | fresh minted blank =>
      refine .fresh (same ▸ minted) fun hnative => ?_
      rw [blank hnative] at carries
      generalize a''.snapshot.manualAttempt = o at carries
      cases carries
      rfl
    | @rewritten a t' written ha same' attempt new =>
      rw [attempt] at carries
      cases hattempt : a''.snapshot.manualAttempt with
      | none =>
        rw [hattempt] at carries
        cases carries
      | some t'' =>
        obtain ⟨t, ht, hfollows⟩ := follows_some carries hattempt
        obtain rfl := Option.some.inj ht
        exact .rewritten written ha (same.trans same') hattempt (hfollows.id ▸ new)
  | @rewritten b t'' written hb same attempt new =>
    obtain rfl := Option.some.inj (hget'.symm.trans hb)
    cases h with
    | carried ha same' => exact .rewritten written ha (same.trans same') attempt (hnumbers.trans_lt new)
    | fresh minted => exact .fresh (same ▸ minted) fun hnative => absurd hnative written
    | rewritten _ ha same' => exact .rewritten written ha (same.trans same') attempt (hnumbers.trans_lt new)

/-- What a path of moves keeps of the receipts. -/
structure Kept (P : Premises) (c c' : Core) (k : ActuatorId) : Prop where
  receipted : Receipted c → Receipted c'
  queued : P.native k → Queued c k → Queued c' k
  sequel : ∀ a', c'.outputs.get k = some a' → Sequel P c k a'
  numbers : c.nextAttempt ≤ c'.nextAttempt
  minted : c.nextInstance ≤ c'.nextInstance

theorem Path.kept (h : Path P c c') (hinv : Inv P c) (k : ActuatorId) : Kept P c c' k := by
  induction h with
  | refl =>
    have hfollows : ∀ o : Option ManualOutputAttempt, Option.Rel ManualOutputAttempt.Follows o o := fun o => by
      cases o with
      | none => exact .none
      | some t => exact .some (.refl t)
    exact ⟨id, fun _ => id, fun a' hget => .carried hget rfl (hfollows _), le_rfl, le_rfl⟩
  | @tail c₁ c₂ hpath hm ih =>
    have hinv₁ : Inv P c₁ := Path.inv hpath hinv
    refine ⟨fun hr => (ih.receipted hr).micro hm hinv₁, fun hnative hq => (ih.queued hnative hq).micro hm hinv₁ hnative,
      fun a' hget => ?_, ih.numbers.trans hm.numbers.1, ih.minted.trans hm.advances.1⟩
    have hlast : ∀ {a}, c₁.outputs.get k = some a → Sequel P c k a' := fun ha =>
      (ih.sequel _ ha).trans ha ih.numbers ih.minted (hm.sequel hinv₁ hget)
    cases hm.sequel hinv₁ hget with
    | fresh minted blank => exact .fresh (ih.minted.trans minted) blank
    | carried ha => exact hlast ha
    | rewritten _ ha => exact hlast ha

/-- An accepted manual proposal before its send: it is pending under the number of its receipt. -/
def Pends (c : Core) (k : ActuatorId) (n : ℕ) : Prop :=
  ∃ a t q, c.outputs.get k = some a ∧ a.snapshot.manualAttempt = some t ∧ t.id = n ∧ t.dispatch = none ∧
    a.pending = some q ∧ q.value = t.requested ∧ c.attempts.get k = some n

end Core

namespace Runtime

open Core (Inv Path Micro Kept Queued Receipted Pends)

variable {σ : Type} {s s' : Runtime σ} {k : ActuatorId} {a : OutputAuthority} {n : ℕ}

/-! ### Manual writes -/

/-- No manual write is delivered. -/
def unwritten : Premises := { roomy := False, issued := False, native := fun _ => True, lasting := False }

/-- No manual write is delivered but at one output. -/
def writtenAt (k : ActuatorId) : Premises := { roomy := False, issued := False, native := fun k' => k' ≠ k, lasting := False }

theorem inv_unwritten {c : Core} {P : Premises} (h : Inv P c) : Inv unwritten c := h.weaken False.elim False.elim

theorem inv_writtenAt {c : Core} {P : Premises} (h : Inv P c) (k : ActuatorId) : Inv (writtenAt k) c :=
  h.weaken False.elim False.elim

/-! ### Deliveries end without a broken expectation -/

/-- A typed rejection. -/
def Rejects (e : Abort) : Prop := e ≠ .panicked

theorem reject_stops {α : Type} (error : Error) : Procedure.Stops Rejects (reject error : Step σ α) := .stop nofun

theorem attempt_stops {α : Type} (result : Except Error α) : Procedure.Stops Rejects (attempt result : Step σ α) := by
  cases result with
  | ok a => exact .pure a
  | error error => exact reject_stops error

theorem record_stops (f : FactOutbox → FactOutbox) : Procedure.Stops Rejects (record f : Step σ PUnit) := .modify _

theorem settle_stops {α : Type} (o : Outcome α) : Procedure.Stops Rejects (settle k o : Step σ α) :=
  .bind (.modify _) fun _ => attempt_stops o.1

theorem onOutput_stops {α : Type} (f : OutputAuthority → Outcome α) : Procedure.Stops Rejects (onOutput k f : Step σ α) := by
  refine .bind .get fun s => ?_
  cases s.outputs.get k with
  | none => exact reject_stops _
  | some a => exact settle_stops (f a)

theorem requireRecordingOpen_stops (now : ℕ) : Procedure.Stops Rejects (requireRecordingOpen now : Step σ Unit) := by
  refine .bind (.modify _) fun _ => .bind .get fun s => ?_
  split_ifs
  · exact reject_stops _
  · exact .pure ()

theorem trying_stops {α : Type} {x : Step σ α} (h : Procedure.Stops Rejects x) : Procedure.Stops Rejects (trying x) := by
  intro s e he
  rw [run_trying] at he
  rcases hx : x.run s with ⟨(error | _) | a, t⟩ <;> rw [hx] at he
  · cases he
  · exact absurd rfl (h s .panicked (by rw [hx]))
  · cases he

theorem checkTransportTime_stops (now : ℕ) : Procedure.Stops Rejects (checkTransportTime now : Step σ Unit) := by
  refine .bind .get fun s => ?_
  dsimp only
  split_ifs
  · exact .bind (reject_stops _) fun _ => .modify _
  · exact .modify _

theorem enqueueOutputOn_stops (resource : ResourceId) (request : List UInt8) (expectedResponse now deadline timeout : ℕ)
    (intent : OutputIntent) :
    Procedure.Stops Rejects (enqueueOutputOn resource request expectedResponse now deadline timeout intent : Step σ _) := by
  refine .bind .get fun s => ?_
  cases s.resources.get resource with
  | none => exact .pure _
  | some r => exact .bind (.modify _) fun _ => .pure _

theorem queueMetakonOutput_stops (now queueTtl timeout : ℕ) :
    Procedure.Stops Rejects (queueMetakonOutput k now queueTtl timeout : Step σ ℕ) := by
  refine .bind (checkTransportTime_stops now) fun _ => .bind .get fun s => ?_
  cases durationAdd now queueTtl with
  | none => exact reject_stops _
  | some deadline =>
    cases s.fence k.instrument with
    | none => exact reject_stops _
    | some fence =>
      refine .bind .get fun s => .bind (onOutput_stops _) fun intent => ?_
      cases s.prepareOutput k intent with
      | error error => exact .bind (.modify _) fun _ => reject_stops _
      | ok prepared =>
        refine .bind (enqueueOutputOn_stops _ _ _ _ _ _ _) fun result => ?_
        cases result with
        | ok transaction => exact .bind (.modify _) fun _ => .pure _
        | error error => exact .bind (.modify _) fun _ => reject_stops _

theorem applyVirtualDispatch_stops (value : F64) : Procedure.Stops Rejects (applyVirtualDispatch k value : Step σ Unit) := by
  refine .bind .get fun s => ?_
  cases s.thermalPlants.get k.instrument with
  | none => exact .pure ()
  | some plant =>
    dsimp only
    split_ifs
    · exact .bind (attempt_stops _) fun _ => .modify _
    · exact .pure ()

/-- An accepted start of a send is a dispatch. -/
theorem beginSimulated_stops (now : ℕ) : Procedure.Stops Rejects (beginSimulated k now : Step σ Dispatch) := by
  refine .bind .get fun s => ?_
  cases s.outputs.get k with
  | none => exact reject_stops _
  | some a =>
    refine fun s e => Procedure.Stops.bind_at (settle_stops _ s) (fun result s₁ hsettle => ?_) e
    obtain ⟨hok, -⟩ := settle_ok hsettle
    obtain ⟨d, rfl, -⟩ := begin_ok hok
    exact Procedure.Stops.bind .get (fun s => .bind (.modify _) fun _ => .pure d) s₁

/-- A manual proposal is refused without a receipt, or pends under a new one. -/
theorem proposeDelivery_pends {proposal : OutputProposal} {now : ℕ} (virtualSimulation : Bool) (s : Runtime σ)
    (hmanual : proposal.lease.owner.isManual = true) :
    (∃ e s', (proposeDelivery k proposal none virtualSimulation now).run s = (.error (.rejected e), s') ∧
      Keeps unwritten s s') ∨
    ∃ s', (proposeDelivery k proposal none virtualSimulation now).run s = (.ok (), s') ∧
      Pends s'.core k (s.nextOutputAttempt + 1) := by
  unfold proposeDelivery
  cases hnext : checkedAdd s.nextOutputAttempt 1 with
  | none =>
    have hrun : (allocateOutputAttempt : Step σ ℕ).run s = (.error (.rejected (.output .counterExhausted)), s) := by
      unfold allocateOutputAttempt
      rw [Procedure.run_get_bind, hnext]
      rfl
    rw [Procedure.run_bind_error hrun]
    exact .inl ⟨_, s, rfl, refl_of (Keeps unwritten) s⟩
  | some next =>
    obtain ⟨rfl, -⟩ := checkedAdd_eq_some.1 hnext
    have hrun : (allocateOutputAttempt : Step σ ℕ).run s =
        (.ok (s.nextOutputAttempt + 1), { s with nextOutputAttempt := s.nextOutputAttempt + 1 }) := by
      unfold allocateOutputAttempt
      rw [Procedure.run_get_bind, hnext]
      rfl
    rw [Procedure.run_bind_ok hrun]
    unfold onOutput
    rw [Procedure.run_bind, Procedure.run_get_bind]
    have hcount : Keeps unwritten s { s with nextOutputAttempt := s.nextOutputAttempt + 1 } := .micro rfl fun _ => .counted
    cases hget : s.outputs.get k with
    | none => exact .inl ⟨_, _, rfl, hcount⟩
    | some a =>
      dsimp only
      rcases hcmd : a.command (.propose proposal) now with ⟨error | result, a'⟩
      · have hstep : a' = a.step ⟨.command (.propose proposal), now⟩ := (congrArg Prod.snd hcmd).symm
        have hcalled : Keeps unwritten ({ s with nextOutputAttempt := s.nextOutputAttempt + 1 } : Runtime σ)
            { s with nextOutputAttempt := s.nextOutputAttempt + 1, outputs := s.outputs.insert k a' } :=
          .micro rfl fun _ => .called hget hstep (.inr (command_refused (congrArg Prod.fst hcmd)))
        exact .inl ⟨error, _, rfl, trans_of (Keeps unwritten) hcount hcalled⟩
      · obtain ⟨rfl, q, hpending, hrequested⟩ := propose_ok (congrArg Prod.fst hcmd)
        rw [hcmd] at hpending hrequested
        refine .inr ?_
        show ∃ s', Procedure.run _ ({ s with
          nextOutputAttempt := s.nextOutputAttempt + 1, outputs := s.outputs.insert k a' } : Runtime σ) = (.ok (), s') ∧ _
        rw [if_pos hmanual, Procedure.run_get_bind]
        dsimp only
        rw [OrderedMap.get_insert_self]
        dsimp only
        obtain ⟨a'', htrack⟩ : ∃ a'', a'.trackManualAttempt (s.nextOutputAttempt + 1) virtualSimulation = some a'' :=
          ⟨_, by unfold OutputAuthority.trackManualAttempt; rw [hrequested]; rfl⟩
        rw [htrack]
        obtain ⟨t, hattempt, hid, hrequested', hunsent, hpending', -⟩ := Core.tracked_attempt htrack
        refine ⟨_, rfl, a'', t, q, OrderedMap.get_insert_self _, hattempt, hid, hunsent, hpending'.trans hpending, ?_,
          OrderedMap.get_insert_self _⟩
        exact Option.some.inj (hrequested.symm.trans hrequested')

/-- What pends is not a safe request. -/
theorem pends_free (hinv : Inv unwritten s.core) (hget : s.outputs.get k = some a) {q : Pending} (hpending : a.pending = some q) :
    a.safeObligationPending = false := by
  refine Bool.eq_false_of_not_eq_true fun hobliged => ?_
  have hwf := (hinv.wf k a hget).1
  have hunleased := (hwf.obliged hobliged).1
  cases hpending.symm.trans (hwf.unqueued hunleased)

/-- A reserved proposal is queued under the number of its receipt. -/
theorem queueMetakonOutput_queued {now queueTtl timeout transaction : ℕ} (hinv : Inv unwritten s.core) (hpends : Pends s.core k n)
    (h : (queueMetakonOutput k now queueTtl timeout).run s = (.ok transaction, s')) : Queued s'.core k := by
  unfold queueMetakonOutput at h
  obtain ⟨u, s₁, htime, h⟩ := Procedure.bind_ok.1 h
  have hsame₁ : s₁.core = s.core := by
    have hsame := checkTransportTime_same now s
    rw [htime] at hsame
    exact hsame
  rw [← hsame₁] at hinv hpends
  rw [Procedure.run_get_bind] at h
  cases hdeadline : durationAdd now queueTtl with
  | none => simp [hdeadline, reject] at h
  | some deadline =>
    cases hfence : s₁.fence k.instrument with
    | none => simp [hdeadline, hfence, reject] at h
    | some fence =>
      simp only [hdeadline, hfence, Procedure.run_get_bind] at h
      obtain ⟨i, s₂, hreserve, h⟩ := Procedure.bind_ok.1 h
      obtain ⟨a, t, q, hget, hattempt, hid, hunsent, hpending, hvalue, hnumber⟩ := hpends
      have hget : s₁.outputs.get k = some a := hget
      have hnumber : s₁.outputAttempts.get k = some n := hnumber
      unfold onOutput at hreserve
      rw [Procedure.run_get_bind, hget, hnumber] at hreserve
      obtain ⟨hok, rfl⟩ := settle_ok hreserve
      obtain ⟨hafter, hissued, hsafe⟩ := OutputAuthority.reserve_ok hok
      have hqueues : (a.reserveTransport now deadline (some n) fence.bindingGeneration fence.mappingRevision).2.Queues := by
        rw [hafter]
        intro t' ht' _ _
        obtain rfl := Option.some.inj (hattempt.symm.trans ht')
        exact ⟨q, i, hpending, hvalue, rfl, hsafe (pends_free hinv hget hpending), hissued.trans (congrArg some hid.symm)⟩
      generalize (a.reserveTransport now deadline (some n) fence.bindingGeneration fence.mappingRevision).2 = b at h hqueues
      have hend : s'.outputs = s₁.outputs.insert k b := by
        cases hprepare : s₁.prepareOutput k i with
        | error error =>
          simp only [hprepare] at h
          obtain ⟨-, s₃, -, h⟩ := Procedure.bind_ok.1 h
          cases h
        | ok prepared =>
          obtain ⟨request, expectedResponse, protocol⟩ := prepared
          simp only [hprepare] at h
          obtain ⟨result, s₃, henqueue, h⟩ := Procedure.bind_ok.1 h
          have hsame := enqueueOutputOn_same fence.resource request expectedResponse now deadline timeout i
            { s₁ with outputs := s₁.outputs.insert k b }
          rw [henqueue] at hsame
          cases result with
          | error error =>
            obtain ⟨-, s₄, -, h⟩ := Procedure.bind_ok.1 h
            cases h
          | ok tx =>
            rw [Procedure.run_modify_bind] at h
            obtain rfl := (Prod.mk.inj h).2
            exact congrArg Core.outputs hsame
      intro b' hb'
      have hb' : s'.outputs.get k = some b' := hb'
      rw [hend, OrderedMap.get_insert_self] at hb'
      obtain rfl := Option.some.inj hb'
      exact hqueues

/-- A started simulated send is written into its receipt. -/
theorem beginSimulated_queued {now : ℕ} {d : Dispatch} (hinv : Inv unwritten s.core) (hpends : Pends s.core k n)
    (h : (beginSimulated k now).run s = (.ok d, s')) : Queued s'.core k := by
  obtain ⟨a, t, q, hget, hattempt, hid, hunsent, hpending, -⟩ := hpends
  have hget : s.outputs.get k = some a := hget
  unfold beginSimulated at h
  rw [Procedure.run_get_bind, hget] at h
  dsimp only at h
  obtain ⟨result, s₁, hsettle, h⟩ := Procedure.bind_ok.1 h
  obtain ⟨hok, rfl⟩ := settle_ok hsettle
  obtain ⟨d', rfl, -⟩ := begin_ok hok
  obtain ⟨hordinary, sent, hstarted⟩ := OutputAuthority.begin_started hok
  have hsafe : d'.safe = false := hordinary (pends_free hinv hget hpending)
  obtain ⟨rfl, rfl⟩ : d' = d ∧ _ := by simpa [noteSend] using h
  intro b hb t' ht' hopen hnone
  have hb : (s.outputs.insert k (a.command .beginDispatch now).2).get k = some b := hb
  rw [OrderedMap.get_insert_self] at hb
  obtain rfl := Option.some.inj hb
  have hstarted : (a.command .beginDispatch now).2.snapshot.manualAttempt = some (t.sendStarted d' sent) :=
    hstarted.trans (congrArg (Option.map _) hattempt)
  obtain rfl := Option.some.inj (hstarted.symm.trans ht')
  obtain ⟨-, ⟨-, hsent⟩ | ⟨hsafe', -⟩⟩ := ManualOutputAttempt.sendStarted_open hopen hunsent
  · cases hnone.symm.trans hsent
  · cases hsafe.symm.trans hsafe'

/-- What a manual delivery leaves: where it succeeds the receipt is reserved or sent, and where it is rejected nothing
was accepted or the rest of the delivery moved on from what was. -/
structure Settles (s : Runtime σ) (k : ActuatorId) (x : Step σ Unit) : Prop where
  done : ∀ u s', x.run s = (.ok u, s') → Queued s'.core k
  failed : Path unwritten s.core (x.run s).2.core ∨ ∃ s₁ : Runtime σ, Inv unwritten s₁.core ∧
    Pends s₁.core k (s.nextOutputAttempt + 1) ∧ Path unwritten s₁.core (x.run s).2.core
  stops : ∀ e, (x.run s).1 = .error e → Rejects e

/-- A manual delivery, once its proposal pends. -/
theorem settles_after {proposal : OutputProposal} {now : ℕ} {virtualSimulation : Bool} {rest : Unit → Step σ Unit}
    (hmanual : proposal.lease.owner.isManual = true) (hinv : Inv unwritten s.core)
    (hpath : ∀ u (s₁ : Runtime σ), Inv unwritten s₁.core → Path unwritten s₁.core ((rest u).run s₁).2.core)
    (hdone : ∀ u (s₁ : Runtime σ), Inv unwritten s₁.core → Pends s₁.core k (s.nextOutputAttempt + 1) →
      ∀ u' s', (rest u).run s₁ = (.ok u', s') → Queued s'.core k)
    (hstops : ∀ u, Procedure.Stops Rejects (rest u)) :
    s.Settles k (proposeDelivery k proposal none virtualSimulation now >>= rest) := by
  have hdelivers : Delivers k proposal none now := ⟨nofun, fun _ => hmanual⟩
  have hwritten : Keeps (writtenAt k) s ((proposeDelivery k proposal none virtualSimulation now).run s).2 :=
    proposeDelivery_keeps hdelivers (fun hne => absurd rfl hne) virtualSimulation s
  obtain ⟨e, s₁, hrun, hkeeps⟩ | ⟨s₁, hrun, hpends⟩ := @proposeDelivery_pends σ k _ now virtualSimulation s hmanual
  · have hend := Procedure.run_bind_error (f := rest) hrun
    refine ⟨fun u s' h => ?_, .inl ?_, fun e' h => ?_⟩
    · rw [hend] at h
      cases h
    · rw [hend]
      exact hkeeps.2 hinv
    · rw [hend] at h
      cases h
      nofun
  · rw [hrun] at hwritten
    have hinv₁ : Inv unwritten s₁.core := inv_unwritten (hwritten.2.inv (inv_writtenAt hinv k))
    have hend := Procedure.run_bind_ok (f := rest) hrun
    refine ⟨fun u s' h => hdone () s₁ hinv₁ hpends u s' (hend ▸ h), .inr ⟨s₁, hinv₁, hpends, ?_⟩, fun e h => ?_⟩
    · rw [hend]
      exact hpath () s₁ hinv₁
    · rw [hend] at h
      exact hstops () s₁ e h

theorem deliverPhysical_settles {proposal : OutputProposal} {now : ℕ} (hmanual : proposal.lease.owner.isManual = true)
    (hinv : Inv unwritten s.core) : s.Settles k (deliverPhysical k proposal none now) := by
  refine settles_after hmanual hinv (fun u s₁ hinv₁ => ?_) (fun u s₁ hinv₁ hpends u' s' h => ?_) fun u => ?_
  · refine Procedure.Moves.bind_from (R := Evolves unwritten) (requireRecordingOpen_evolves now s₁) (fun _ => ?_) hinv₁
    refine .bind .get fun s => ?_
    rcases s.outputTiming k.instrument with _ | ⟨_ | queueTtl, timeout⟩
    · exact .stop _
    · exact .stop _
    · cases timeout with
      | none => exact .stop _
      | some timeout =>
        exact moves_evolves (.bind (queueMetakonOutput_keeps k now queueTtl timeout) fun _ => .pure ())
  · obtain ⟨v, s₂, hopen, hrest⟩ := Procedure.bind_ok.1 h
    obtain rfl := requireRecordingOpen_same hinv₁ hopen
    rw [Procedure.run_get_bind] at hrest
    rcases htiming : s₂.outputTiming k.instrument with _ | ⟨_ | queueTtl, timeout⟩
    · simp [htiming, reject] at hrest
    · simp [htiming, reject] at hrest
    · cases timeout with
      | none => simp [htiming, reject] at hrest
      | some timeout =>
        simp only [htiming] at hrest
        obtain ⟨transaction, s₃, hqueue, hend⟩ := Procedure.bind_ok.1 hrest
        obtain rfl := (Prod.mk.inj hend).2
        exact queueMetakonOutput_queued hinv₁ hpends hqueue
  · refine .bind (requireRecordingOpen_stops now) fun _ => .bind .get fun s => ?_
    rcases s.outputTiming k.instrument with _ | ⟨_ | queueTtl, timeout⟩
    · exact reject_stops _
    · exact reject_stops _
    · cases timeout with
      | none => exact reject_stops _
      | some timeout => exact .bind (queueMetakonOutput_stops now queueTtl timeout) fun _ => .pure ()

/-- What a simulated delivery does once its send started. -/
def finishSimulated (k : ActuatorId) (attemptId : Option ℕ) (dispatch : Dispatch) (now : ℕ) : Step σ Unit := do
  let fact (stage : OutputStage) (source : OutputEvidenceSource) : Step σ PUnit :=
    record fun facts => facts.outputCorrelated k stage (some dispatch.value) now source attemptId (some dispatch.id)
  fact .authorized .none
  fact .sendStarted .virtualSimulation
  match ← trying (applyVirtualDispatch k dispatch.value) with
  | .error error =>
    let _ ← onOutput k fun authority => authority.command (.complete dispatch.id .failed) now
    fact .failed .virtualSimulation
    reject error
  | .ok _ =>
    let _ ← onOutput k fun authority => authority.command (.complete dispatch.id .readbackVerified) now
    fact .readbackVerified .virtualSimulation

theorem finishSimulated_keeps (k : ActuatorId) (attemptId : Option ℕ) (dispatch : Dispatch) (now : ℕ) :
    Procedure.Moves (Keeps unwritten) (finishSimulated k attemptId dispatch now : Step σ Unit) := by
  have hfact : ∀ f, Procedure.Moves (Keeps unwritten) (record f : Step σ PUnit) := fun f => moves_keeps (record_same f)
  refine .bind (hfact _) fun _ => .bind (hfact _) fun _ =>
    .bind (trying_moves (moves_keeps (applyVirtualDispatch_same k dispatch.value))) fun applied => ?_
  cases applied with
  | error error => exact .bind (complete_keeps k dispatch.id .failed now) fun _ => .bind (hfact _) fun _ => .stop _
  | ok u => exact .bind (complete_keeps k dispatch.id .readbackVerified now) fun _ => hfact _

theorem finishSimulated_stops (k : ActuatorId) (attemptId : Option ℕ) (dispatch : Dispatch) (now : ℕ) :
    Procedure.Stops Rejects (finishSimulated k attemptId dispatch now : Step σ Unit) := by
  refine .bind (record_stops _) fun _ => .bind (record_stops _) fun _ =>
    .bind (trying_stops (applyVirtualDispatch_stops dispatch.value)) fun applied => ?_
  cases applied with
  | error error => exact .bind (onOutput_stops _) fun _ => .bind (record_stops _) fun _ => reject_stops _
  | ok u => exact .bind (onOutput_stops _) fun _ => record_stops _

theorem deliverSimulated_settles {proposal : OutputProposal} {now : ℕ} (hmanual : proposal.lease.owner.isManual = true)
    (hinv : Inv unwritten s.core) : s.Settles k (deliverSimulated k proposal none now) := by
  have hshape : (deliverSimulated k proposal none now : Step σ Unit) = (do
      proposeDelivery k proposal none true now
      let attemptId := (← get).outputAttempts.get k
      requireRecordingOpen now
      let dispatch ← beginSimulated k now
      finishSimulated k attemptId dispatch now) := rfl
  rw [hshape]
  refine settles_after hmanual hinv (fun u s₁ hinv₁ => ?_) (fun u s₁ hinv₁ hpends u' s' h => ?_) fun u => ?_
  · rw [Procedure.run_get_bind]
    refine (delivered_after_gate (P := unwritten) (fun s₂ hpasses => ?_) hinv₁).1
    exact Procedure.Moves.bind_from (beginSimulated_keeps now (.inr hpasses)) fun dispatch =>
      finishSimulated_keeps k _ dispatch now
  · rw [Procedure.run_get_bind] at h
    obtain ⟨v, s₂, hopen, hafter⟩ := Procedure.bind_ok.1 h
    obtain ⟨-, hpasses⟩ := requireRecordingOpen_ok hinv₁ hopen
    obtain rfl := requireRecordingOpen_same hinv₁ hopen
    obtain ⟨dispatch, s₃, hbegin, hlast⟩ := Procedure.bind_ok.1 hafter
    have hqueued := beginSimulated_queued hinv₁ hpends hbegin
    have hbegun : Keeps unwritten s₂ s₃ := by
      have hkeeps := beginSimulated_keeps (P := unwritten) (k := k) now (.inr hpasses)
      rw [hbegin] at hkeeps
      exact hkeeps
    have hinv₃ : Inv unwritten s₃.core := hbegun.2.inv hinv₁
    have hfinish := (finishSimulated_keeps k (s₂.outputAttempts.get k) dispatch now s₃).2 hinv₃
    rw [hlast] at hfinish
    exact (hfinish.kept hinv₃ k).queued trivial hqueued
  · exact .bind .get fun s => .bind (requireRecordingOpen_stops now) fun _ =>
      .bind (beginSimulated_stops now) fun dispatch => finishSimulated_stops k _ dispatch now

theorem deliver_settles {proposal : OutputProposal} {now : ℕ} (hmanual : proposal.lease.owner.isManual = true)
    (hinv : Inv unwritten s.core) : s.Settles k (deliver k proposal none now) := by
  have hbranch : ∀ {x : Step σ Unit}, s.Settles k x → (deliver k proposal none now).run s = x.run s →
      s.Settles k (deliver k proposal none now) := by
    rintro x ⟨hdone, hfailed, hstops⟩ heq
    refine ⟨fun u s' h => hdone u s' (heq ▸ h), ?_, fun e h => hstops e (heq ▸ h)⟩
    rw [heq]
    exact hfailed
  by_cases hkind : s.physical k.instrument = true
  · refine hbranch (@deliverPhysical_settles σ s k _ now hmanual hinv) ?_
    unfold deliver
    rw [Procedure.run_get_bind, if_pos hkind]
  · refine hbranch (@deliverSimulated_settles σ s k _ now hmanual hinv) ?_
    unfold deliver
    rw [Procedure.run_get_bind, if_neg hkind]

/-- Once the receipt is failed before its send it is not open. -/
theorem failManual_queued : Queued ((changeOutput k OutputAuthority.failManualBeforeSend).run s).2.core k := by
  intro b hb t ht hopen hunsent
  have hb : ((changeOutput k OutputAuthority.failManualBeforeSend).run s).2.outputs.get k = some b := hb
  unfold changeOutput at hb
  rw [Procedure.run_modify] at hb
  cases hget : s.outputs.get k with
  | none =>
    rw [hget] at hb
    cases hget.symm.trans hb
  | some a =>
    rw [hget] at hb
    obtain rfl : a.failManualBeforeSend = b := Option.some.inj ((OrderedMap.get_insert_self _).symm.trans hb)
    rw [OutputAuthority.failManual_attempt] at ht
    obtain ⟨t₀, -, rfl⟩ := Option.map_eq_some_iff.1 ht
    obtain ⟨hsame, hsent⟩ := ManualOutputAttempt.failBeforeSend_open hopen
    rw [hsame] at hunsent
    simp [hunsent] at hsent

theorem trying_rejected {α : Type} {x : Step σ α} {error : Error} (h : x.run s = (.error (.rejected error), s')) :
    (trying x).run s = (.ok (.error error), s') := by
  rw [run_trying, h]

theorem trying_done {α : Type} {x : Step σ α} {b : α} (h : x.run s = (.ok b, s')) : (trying x).run s = (.ok (.ok b), s') := by
  rw [run_trying, h]

/-- A rejected manual write revokes what it had proposed. -/
theorem rejectedWrite_queued {s₂ : Runtime σ} {snapshot : OutputSnapshot} {error : Error} {now : ℕ}
    (hinv : Inv unwritten s.core) (hreceipted : Receipted s.core) (hqueued : Queued s.core k) (hget : s.outputs.get k = some a)
    (hsnapshot : a.snapshot = snapshot)
    (hfailed : Path unwritten s.core s₂.core ∨ ∃ s₁ : Runtime σ, Inv unwritten s₁.core ∧
      Pends s₁.core k (s.nextOutputAttempt + 1) ∧ Path unwritten s₁.core s₂.core) :
    Queued ((do
      let attempt := ((← get).outputs.get k).bind fun authority =>
        authority.snapshot.manualAttempt.map ManualOutputAttempt.id
      if attempt ≠ snapshot.manualAttempt.map ManualOutputAttempt.id then
        changeOutput k OutputAuthority.failManualBeforeSend
        let _ ← output k .requestSafe now
      reject error : Step σ Unit).run s₂).2.core k := by
  have hinv₂ : Inv unwritten s₂.core := by
    obtain hpath | ⟨s₁, hinv₁, -, hpath⟩ := hfailed
    · exact hpath.inv hinv
    · exact hpath.inv hinv₁
  rw [Procedure.run_get_bind]
  dsimp only
  by_cases hnew : ((s₂.outputs.get k).bind fun authority => authority.snapshot.manualAttempt.map ManualOutputAttempt.id) ≠
      snapshot.manualAttempt.map ManualOutputAttempt.id
  · rw [if_pos hnew]
    have hfail : Procedure.Moves (Keeps unwritten) (changeOutput k OutputAuthority.failManualBeforeSend : Step σ PUnit) :=
      changeOutput_keeps k (b := .failManualBeforeSend) now rfl fun _ => rfl
    have hchanged := (hfail s₂).2.inv hinv₂
    have hquiet := failManual_queued (s := s₂) (k := k)
    obtain ⟨s₃, hchange⟩ : ∃ s₃, (changeOutput k OutputAuthority.failManualBeforeSend).run s₂ = (.ok ⟨⟩, s₃) := ⟨_, rfl⟩
    rw [hchange] at hchanged hquiet
    rw [Procedure.run_bind_ok hchange]
    have hsafe : Procedure.Moves (Evolves unwritten) (do
        let _ ← output k .requestSafe now
        reject error : Step σ Unit) := .bind (output_quiet nofun nofun) fun _ => .stop _
    exact ((hsafe s₃ hchanged).kept hchanged k).queued trivial hquiet
  · rw [if_neg hnew]
    rw [not_not] at hnew
    show Queued s₂.core k
    obtain hpath | ⟨s₁, hinv₁, hpends, hpath⟩ := hfailed
    · exact (hpath.kept hinv k).queued trivial hqueued
    · -- the accepted proposal left a receipt under a new number, so the numbers differ
      intro b hb
      obtain ⟨a₁, t, q, hget₁, hattempt, hid, -⟩ := hpends
      cases (hpath.kept hinv₁ k).sequel b hb with
      | fresh _ blank =>
        intro t' ht'
        cases (blank trivial).symm.trans ht'
      | rewritten written => exact absurd trivial written
      | carried ha _ carries =>
        obtain rfl := Option.some.inj (hget₁.symm.trans ha)
        rw [hattempt] at carries
        have hb : s₂.outputs.get k = some b := hb
        rw [hb] at hnew
        cases hb' : b.snapshot.manualAttempt with
        | none =>
          rw [hb'] at carries
          cases carries
        | some t' =>
          obtain ⟨t₀, ht₀, hfollows⟩ := Core.follows_some carries hb'
          obtain rfl := Option.some.inj ht₀
          have hsame : snapshot.manualAttempt.map ManualOutputAttempt.id = some (s.nextOutputAttempt + 1) := by
            rw [← hnew, Option.bind_some, hb', Option.map_some, hfollows.id, hid]
          obtain ⟨t₁, ht₁, hid₁⟩ := Option.map_eq_some_iff.1 hsame
          have hle : t₁.id ≤ s.nextOutputAttempt := hreceipted.numbered k a t₁ hget (hsnapshot ▸ ht₁)
          omega

/-- A manual write leaves the receipt of its output settled, reserved or sent, whatever its result. -/
theorem manualWrite_queued {snapshot : OutputSnapshot} {owner : ℕ} {value : Value} {ttl now : ℕ} (hinv : Inv unwritten s.core)
    (hreceipted : Receipted s.core) (hqueued : Queued s.core k) (hget : s.outputs.get k = some a) (hsnapshot : a.snapshot = snapshot)
    (howner : ∀ lease, snapshot.lease = some lease → lease.owner = .manual owner) :
    Queued ((manualWrite k snapshot value ttl now).run s).2.core k := by
  unfold manualWrite
  by_cases hbusy : snapshot.pending ∨ snapshot.inFlight.isSome ∨
      snapshot.manualAttempt.any (fun attempt => !attempt.terminal) = true
  · rw [if_pos hbusy]
    exact hqueued
  rw [if_neg hbusy]
  have hgate := requireRecordingOpen_evolves (P := unwritten) now s
  obtain ⟨e, s₁, hrun, heq⟩ | ⟨u, s₁, hrun, heq⟩ := Procedure.bind_cases (requireRecordingOpen now) _ s
  · rw [heq]
    rw [hrun] at hgate
    exact ((hgate hinv).kept hinv k).queued trivial hqueued
  obtain rfl := requireRecordingOpen_same hinv hrun
  rw [heq, Procedure.run_get_bind]
  clear hrun heq hgate
  cases s₁.descriptor k.instrument with
  | none => exact hqueued
  | some descriptor =>
    dsimp only
    cases descriptor.parameter k.parameter with
    | none => exact hqueued
    | some parameter =>
      cases hlease : snapshot.lease with
      | none => exact hqueued
      | some lease =>
        dsimp only
        have hmanual : lease.owner.isManual = true := by rw [howner lease hlease]; rfl
        obtain ⟨hdone, hfailed, hstops⟩ := @deliver_settles σ s₁ k
          ⟨lease, value, parameter.unit, ttl⟩ now hmanual hinv
        rcases hdeliver : (deliver k ⟨lease, value, parameter.unit, ttl⟩ none now).run s₁ with ⟨(error | _) | u, s₂⟩
        · rw [hdeliver] at hfailed
          have htrying : (trying (deliver k ⟨lease, value, parameter.unit, ttl⟩ none now)).run s₁ = (.ok (.error error), s₂) :=
            trying_rejected hdeliver
          rw [Procedure.run_bind_ok htrying]
          exact rejectedWrite_queued hinv hreceipted hqueued hget hsnapshot hfailed
        · exact absurd rfl (hstops .panicked (by rw [hdeliver]))
        · have htrying : (trying (deliver k ⟨lease, value, parameter.unit, ttl⟩ none now)).run s₁ = (.ok (.ok u), s₂) :=
            trying_done hdeliver
          rw [Procedure.run_bind_ok htrying]
          exact hdone u s₂ hdeliver

/-! ### Whole runs -/

/-- Every receipt has a number that was issued, and an open one is reserved or sent. -/
structure Settled (s : Runtime σ) : Prop where
  receipted : Receipted s.core
  queued : ∀ k, Queued s.core k

theorem Settled.evolves (h : Settled s) (hinv : Inv unwritten s.core) (hpath : Evolves unwritten s s') : Settled s' where
  receipted := ((hpath hinv).kept hinv ⟨0, 0⟩).receipted h.receipted
  queued k := ((hpath hinv).kept hinv k).queued trivial (h.queued k)

theorem manualOutput_queued (hinv : Inv unwritten s.core) (h : Settled s) (owner expectedInstance expectedEpoch : ℕ)
    (value : Value) (ttl now : ℕ) :
    Queued ((manualOutput k owner expectedInstance expectedEpoch (.write value ttl) now).run s).2.core k := by
  unfold manualOutput
  rw [Procedure.run_get_bind]
  dsimp only
  by_cases hknown : (s.instrumentIsPrepared k.instrument ||
      !(s.physical k.instrument || s.thermalPlants.contains k.instrument)) = true
  · rw [if_pos hknown]
    exact h.queued k
  rw [if_neg hknown]
  have hquiet : Procedure.Moves (Evolves unwritten) (output k .tick now : Step σ OutputResult) := output_quiet nofun nofun
  have htick := hquiet s
  obtain ⟨e, s₁, hrun, heq⟩ | ⟨u, s₁, hrun, heq⟩ := Procedure.bind_cases (output k .tick now) _ s
  · rw [heq]
    rw [hrun] at htick
    exact (h.evolves hinv htick).queued k
  rw [heq, Procedure.run_get_bind]
  rw [hrun] at htick
  have h₁ := h.evolves hinv htick
  have hinv₁ := htick.inv hinv
  cases hget : s₁.outputs.get k with
  | none => exact h₁.queued k
  | some a =>
    dsimp only
    by_cases hstale : a.snapshot.instanceId ≠ expectedInstance ∨ a.snapshot.epoch ≠ expectedEpoch
    · rw [if_pos hstale]
      exact h₁.queued k
    rw [if_neg hstale]
    by_cases hheld : (s₁.warmingOn k || a.snapshot.lease.any (fun lease => decide (lease.owner ≠ .manual owner))) = true
    · rw [if_pos hheld]
      exact h₁.queued k
    rw [if_neg hheld]
    have howner : ∀ lease, a.snapshot.lease = some lease → lease.owner = .manual owner := by
      intro lease hlease
      by_contra hne
      exact hheld (by simp [hlease, hne])
    exact manualWrite_queued hinv₁ h₁.receipted (h₁.queued k) hget rfl howner

/-- A manual write to an output whose proposal the authority accepts: it leaves a receipt under a new number. -/
def Accepts (A : ByteTransport σ) (s : Runtime σ) (op : Op σ) (k : ActuatorId) : Prop :=
  ∃ owner expectedInstance expectedEpoch value ttl now a t,
    op = .manualOutput k owner expectedInstance expectedEpoch (.write value ttl) now ∧
      (step A s op).outputs.get k = some a ∧ a.snapshot.manualAttempt = some t ∧ s.nextOutputAttempt < t.id

/-- Every call but a manual write to the output is a path that writes no receipt of it. -/
theorem step_permitted (A : ByteTransport σ) (s : Runtime σ) (op : Op σ) {P : Premises} (hroomy : ¬ P.roomy) (hissued : ¬ P.issued)
    (hlasting : ¬ P.lasting)
    (hop : ∀ k owner expectedInstance expectedEpoch value ttl now,
      op = .manualOutput k owner expectedInstance expectedEpoch (.write value ttl) now → ¬ P.native k) :
    Evolves P s (step A s op) := by
  refine step_evolves A s op ?_
  cases op with
  | output actuator command now => exact ⟨fun hp => absurd hp hissued, fun hp => absurd hp hroomy⟩
  | manualOutput k owner expectedInstance expectedEpoch command now =>
    rintro hnative value ttl rfl
    exact hop k owner expectedInstance expectedEpoch value ttl now rfl hnative
  | requireRecording => exact hlasting
  | _ => trivial

theorem Settled.step (A : ByteTransport σ) (h : Settled s) (hinv : Inv unwritten s.core) (op : Op σ) : Settled (step A s op) := by
  by_cases hwrite : ∃ k owner expectedInstance expectedEpoch value ttl now,
      op = .manualOutput k owner expectedInstance expectedEpoch (.write value ttl) now
  · obtain ⟨k, owner, expectedInstance, expectedEpoch, value, ttl, now, rfl⟩ := hwrite
    have hpath : Evolves (writtenAt k) s (Runtime.step A s _) := step_permitted A s
      (.manualOutput k owner expectedInstance expectedEpoch (.write value ttl) now) id id id fun k' _ _ _ _ _ _ heq hne => by
        cases heq
        exact hne rfl
    have hinv' := inv_writtenAt hinv k
    refine ⟨((hpath hinv').kept hinv' k).receipted h.receipted, fun k' => ?_⟩
    by_cases hk : k' = k
    · subst hk
      exact manualOutput_queued hinv h owner expectedInstance expectedEpoch value ttl now
    · exact ((hpath hinv').kept hinv' k').queued hk (h.queued k')
  · exact h.evolves hinv (step_permitted A s op id id id fun k owner expectedInstance expectedEpoch value ttl now heq =>
      absurd ⟨k, owner, expectedInstance, expectedEpoch, value, ttl, now, heq⟩ hwrite)

theorem run_settled (A : ByteTransport σ) (ops : List (Op σ)) : Settled (run A ops) := by
  induction ops using List.reverseRecOn with
  | nil =>
    have hnone : ∀ k a, (Runtime.empty σ).core.outputs.get k = some a → False := by
      intro k a hget
      cases hget
    exact ⟨⟨fun k a hget => (hnone k a hget).elim, fun k a _ hget => (hnone k a hget).elim⟩,
      fun k a hget => (hnone k a hget).elim⟩
  | append_singleton ops op ih =>
    rw [run_snoc]
    exact ih.step A (inv_unwritten (run_inv_unconditional A ops)) op

/-- A call follows the receipt of an authority, replaces the authority, or is a manual write that it accepts. -/
theorem step_sequel (A : ByteTransport σ) (hinv : Inv unwritten s.core) (op : Op σ) {a' : OutputAuthority}
    (hget : (step A s op).outputs.get k = some a') :
    (∃ a, s.outputs.get k = some a ∧ a'.instanceId = a.instanceId ∧
      Option.Rel ManualOutputAttempt.Follows a.snapshot.manualAttempt a'.snapshot.manualAttempt) ∨
    s.nextInstance ≤ a'.instanceId ∨ Accepts A s op k := by
  by_cases hwrite : ∃ owner expectedInstance expectedEpoch value ttl now,
      op = .manualOutput k owner expectedInstance expectedEpoch (.write value ttl) now
  · obtain ⟨owner, expectedInstance, expectedEpoch, value, ttl, now, rfl⟩ := hwrite
    have hpath : Evolves (writtenAt k) s (Runtime.step A s _) := step_permitted A s
      (.manualOutput k owner expectedInstance expectedEpoch (.write value ttl) now) id id id fun k' _ _ _ _ _ _ heq hne => by
        cases heq
        exact hne rfl
    have hinv' := inv_writtenAt hinv k
    cases ((hpath hinv').kept hinv' k).sequel a' hget with
    | carried ha same carries => exact .inl ⟨_, ha, same, carries⟩
    | fresh minted => exact .inr (.inl minted)
    | rewritten _ _ _ attempt new =>
      exact .inr (.inr ⟨owner, expectedInstance, expectedEpoch, value, ttl, now, a', _, rfl, hget, attempt, new⟩)
  · let P : Premises := { roomy := False, issued := False, native := fun k' => k' = k, lasting := False }
    have hpath : Evolves P s (step A s op) := step_permitted A s op id id id
      fun k' owner expectedInstance expectedEpoch value ttl now heq hk => by
        have hk : k' = k := hk
        subst hk
        exact hwrite ⟨owner, expectedInstance, expectedEpoch, value, ttl, now, heq⟩
    have hinv' : Inv P s.core := hinv.weaken False.elim False.elim
    cases ((hpath hinv').kept hinv' k).sequel a' hget with
    | carried ha same carries => exact .inl ⟨_, ha, same, carries⟩
    | fresh minted => exact .inr (.inl minted)
    | rewritten written => exact absurd rfl written

/-- What every run leaves of the receipts of manual writes. An open receipt belongs to the pending proposal or to the
send in flight; a settled one stays as it is until its authority accepts another manual write; and an authority with
nothing pending and nothing in flight has no open receipt, so that none keeps it busy. -/
structure ReceiptsSettle (A : ByteTransport σ) (ops : List (Op σ)) : Prop where
  settles : ∀ k a t, (run A ops).outputs.get k = some a → a.snapshot.manualAttempt = some t → t.terminal = false →
    (t.dispatch = none ∧ ∃ q i, a.pending = some q ∧ q.value = t.requested ∧ a.transportReserved = some i ∧
      i.safe = false ∧ i.attemptId = some t.id) ∨
    ∃ d, a.snapshot.inFlight = some d ∧ d.safe = false ∧ t.dispatch = some d.id
  kept : ∀ before after, ops = before ++ after → ∀ k a a' t, (run A before).outputs.get k = some a →
    (run A ops).outputs.get k = some a' → a'.instanceId = a.instanceId → a.snapshot.manualAttempt = some t →
    t.terminal = true → a'.snapshot.manualAttempt = some t ∨
      ∃ between op rest, after = between ++ op :: rest ∧ Accepts A (run A (before ++ between)) op k
  free : ∀ k a t, (run A ops).outputs.get k = some a → a.pending = none → a.snapshot.inFlight = none →
    a.snapshot.manualAttempt = some t → t.terminal = true

/-- The identities of the authorities of an owner, and of those before it, were issued. -/
theorem run_minted (A : ByteTransport σ) (before after : List (Op σ)) :
    (run A before).nextInstance ≤ (run A (before ++ after)).nextInstance := by
  induction after using List.reverseRecOn with
  | nil => rw [List.append_nil]
  | append_singleton after op ih =>
    rw [← List.append_assoc, run_snoc]
    have hinv := run_inv_unconditional A (before ++ after)
    have hpath := step_permitted (P := unconditional) A (run A (before ++ after)) op id id id
      fun _ _ _ _ _ _ _ _ => id
    exact ih.trans ((hpath hinv).kept hinv ⟨0, 0⟩).minted

theorem run_keeps_settled (A : ByteTransport σ) (before after : List (Op σ)) {a a' : OutputAuthority} {t : ManualOutputAttempt}
    (hget : (run A before).outputs.get k = some a) (hget' : (run A (before ++ after)).outputs.get k = some a')
    (hsame : a'.instanceId = a.instanceId) (hattempt : a.snapshot.manualAttempt = some t) (hterminal : t.terminal = true) :
    a'.snapshot.manualAttempt = some t ∨
      ∃ between op rest, after = between ++ op :: rest ∧ Accepts A (run A (before ++ between)) op k := by
  induction after using List.reverseRecOn generalizing a' with
  | nil =>
    rw [List.append_nil] at hget'
    obtain rfl := Option.some.inj (hget.symm.trans hget')
    exact .inl hattempt
  | append_singleton after op ih =>
    rw [← List.append_assoc, run_snoc] at hget'
    have hinv := inv_unwritten (run_inv_unconditional A (before ++ after))
    obtain ⟨b, hb, hinst, hfollows⟩ | hminted | haccepts := step_sequel A hinv op hget'
    · obtain hkept | ⟨between, op', rest, rfl, haccepts⟩ := ih hb (hinst.symm.trans hsame)
      · rw [hkept] at hfollows
        cases hattempt' : a'.snapshot.manualAttempt with
        | none =>
          rw [hattempt'] at hfollows
          cases hfollows
        | some t' =>
          obtain ⟨t₀, ht₀, hfollows⟩ := Core.follows_some hfollows hattempt'
          obtain rfl := Option.some.inj ht₀
          exact .inl (congrArg some (hfollows.settled hterminal))
      · exact .inr ⟨between, op', rest ++ [op], by simp, haccepts⟩
    · have hissued : a.instanceId < (run A before).nextInstance := ((run_inv_unconditional A before).wf k a hget).2.2
      have hgrows := run_minted A before after
      omega
    · exact .inr ⟨after, op, [], rfl, haccepts⟩

theorem manual_receipts_settle (A : ByteTransport σ) (ops : List (Op σ)) : ReceiptsSettle A ops := by
  obtain ⟨hreceipted, hqueued⟩ := run_settled A ops
  have hsettles : ∀ k a t, (run A ops).outputs.get k = some a → a.snapshot.manualAttempt = some t → t.terminal = false →
      (t.dispatch = none ∧ ∃ q i, a.pending = some q ∧ q.value = t.requested ∧ a.transportReserved = some i ∧
        i.safe = false ∧ i.attemptId = some t.id) ∨
      ∃ d, a.snapshot.inFlight = some d ∧ d.safe = false ∧ t.dispatch = some d.id := by
    intro k a t hget hattempt hopen
    refine (hreceipted.tracks k a hget t hattempt hopen).imp (fun hunsent => ⟨hunsent, ?_⟩) id
    exact hqueued k a hget t hattempt hopen hunsent
  refine ⟨hsettles, ?_, fun k a t hget hidle hlanded hattempt => ?_⟩
  · rintro before after rfl k a a' t hget hget' hsame hattempt hterminal
    exact run_keeps_settled A before after hget hget' hsame hattempt hterminal
  · refine Bool.eq_true_of_not_eq_false fun hopen => ?_
    obtain ⟨-, q, -, hpending, -⟩ | ⟨d, hflight, -⟩ := hsettles k a t hget hattempt hopen
    · cases hidle.symm.trans hpending
    · cases hlanded.symm.trans hflight

/-! ### A rebound instrument -/

/-- A settled receipt stays, also where its authority does not. -/
def KeptAnywhere (A : ByteTransport σ) (ops : List (Op σ)) : Prop :=
  ∀ before after, ops = before ++ after → ∀ k a a' t, (run A before).outputs.get k = some a →
    (run A ops).outputs.get k = some a' → a.snapshot.manualAttempt = some t → t.terminal = true →
    a'.snapshot.manualAttempt = some t ∨
      ∃ between op rest, after = between ++ op :: rest ∧ Accepts A (run A (before ++ between)) op k

def rigOutput : DataParameterDefinition :=
  { id := heaterPower, name := "power", valueSpec := .float F64.zero (F64.ofInt 100), unit := .percent
    access := .readWrite, role := .actuator, writeEffect := .outputAffecting, operation := .output, scale := F64.ofInt 1 }

def rigBinding (generation : ℕ) : MetakonBinding :=
  { resource := 1, device := 1, channel := 1, bindingGeneration := generation, mappingRevision := 1
    expectedOutputUnit := some .percent, outputQueueTtl := some (fromSecs 1), outputTimeout := some (fromSecs 1) }

/-- A manual write to a Metakon output that is settled by a safe request before its first byte. -/
def settledRig : List (Op Unit) :=
  [.registerTransport 1 () (fromSecs 1),
    .registerMetakon
      { definition := { schemaVersion := 1, id := 1, name := "rig", parameters := [rigOutput] }
        binding := rigBinding 1, historyCapacity := 8 }] ++ arming 1 (fromSecs 1) ++
  [.manualOutput (benchOutput 1) 1 1 3 (.write (.float F64.zero) (fromSecs 1)) 0,
    .output (benchOutput 1) .requestSafe 0]

/-- Rebinding the instrument puts a new authority in place of the old one, and the receipt is gone with it. -/
theorem rebound_receipt_dropped : ¬ ∀ ops, KeptAnywhere noTransport ops := by
  intro h
  have hbefore : (((run noTransport settledRig).outputs.get (benchOutput 1)).bind fun a =>
      a.snapshot.manualAttempt).any ManualOutputAttempt.terminal = true := by decide +kernel
  have hafter : ((run noTransport (settledRig ++ [.rebindMetakon 1 (rigBinding 2) 0])).outputs.get (benchOutput 1)).any
      (fun a => a.snapshot.manualAttempt.isNone) = true := by decide +kernel
  obtain ⟨t, ht, hterminal⟩ := (Option.any_eq_true _ _).1 hbefore
  obtain ⟨a, hget, hattempt⟩ := Option.bind_eq_some_iff.1 ht
  obtain ⟨a', hget', hnone⟩ := (Option.any_eq_true _ _).1 hafter
  rw [Option.isNone_iff_eq_none] at hnone
  obtain hkept | ⟨between, op, rest, heq, haccepts⟩ := h _ settledRig _ rfl (benchOutput 1) a a' t hget hget' hattempt hterminal
  · cases hnone.symm.trans hkept
  · -- the only call in between is the rebinding
    obtain ⟨owner, expectedInstance, expectedEpoch, value, ttl, now, b, t', rfl, -⟩ := haccepts
    have hmem : (Op.manualOutput (benchOutput 1) owner expectedInstance expectedEpoch (.write value ttl) now : Op Unit) ∈
        [Op.rebindMetakon 1 (rigBinding 2) 0] := by simp [heq]
    cases List.mem_singleton.1 hmem

end Runtime
end LabRuntime
