import LabRuntime.Managed.Slots
import Mathlib.Tactic.FinCases

/-! The contract of the worker pool over every run: each admitted job is with one slot or has been
answered, never both; what is ready is collected within two polls. -/

namespace LabRuntime

variable {N : Type}

namespace Slot

/-- The job a slot answers for: its ticket, correlation and deadline. -/
def record (slot : Slot N) : Option (ℕ × Correlation × ℕ) :=
  slot.busy.map fun busy => (busy.ticket, busy.correlation, busy.deadline)

def holding (slot : Slot N) (ticket : ℕ) : ℕ := if slot.record.map Prod.fst = some ticket then 1 else 0

variable {closed : Bool} {slot : Slot N}

theorem cancel_sound (h : slot.Sound closed) (correlation : Correlation) : (slot.cancel correlation).Sound closed := by
  refine ⟨h.worker, fun hlife => (h.live hlife).trans ?_, h.jobs, fun hdead => ?_⟩
  · cases hbusy : slot.busy with
    | none => simp [cancel, hbusy]
    | some busy =>
      simp only [cancel, hbusy, Option.map_some, Option.toList_some, List.map_cons, List.map_nil]
      split_ifs <;> rfl
  · obtain ⟨hbusy, hrest⟩ := h.dead hdead
    exact ⟨by simp [cancel, hbusy], hrest⟩

theorem cancel_record (slot : Slot N) (correlation : Correlation) : (slot.cancel correlation).record = slot.record := by
  cases hbusy : slot.busy with
  | none => simp [record, cancel, hbusy]
  | some busy =>
    simp only [record, cancel, hbusy, Option.map_some]
    split_ifs <;> rfl

theorem shutdown_sound (h : slot.Sound closed) : slot.shutdown.Sound true := by
  refine ⟨⟨h.worker.lost, h.worker.receiver, h.worker.sender, fun hended hwork => ⟨rfl, (h.worker.left hended hwork).2⟩⟩,
    fun hlife => (h.live hlife).trans ?_, ?_, fun hdead => ?_⟩
  · cases hbusy : slot.busy <;> simp [shutdown, hbusy, keyOf]
  · simp
  · obtain ⟨hbusy, _, hrest⟩ := h.dead hdead
    exact ⟨by simp [shutdown, hbusy], rfl, hrest⟩

theorem shutdown_record (slot : Slot N) : slot.shutdown.record = slot.record := by
  cases hbusy : slot.busy <;> simp [record, shutdown, hbusy]

/-- An expired slot holds the same job. -/
theorem expire_keeps {slot' : Slot N} {correlation : Correlation} {now : ℕ} (h : slot.Sound closed)
    (hexpire : slot.expire correlation now = some slot') :
    slot'.Sound closed ∧ slot'.record = slot.record ∧ slot'.lifecycle = slot.lifecycle ∧ slot'.worker = slot.worker := by
  unfold expire at hexpire
  cases hbusy : slot.busy with
  | none => simp [hbusy] at hexpire
  | some busy =>
    rw [hbusy] at hexpire
    dsimp only at hexpire
    split_ifs at hexpire
    obtain rfl := Option.some.inj hexpire
    refine ⟨⟨h.worker, fun hlife => (h.live hlife).trans ?_, h.jobs, fun hdead => ?_⟩, ?_, rfl, rfl⟩
    · simp [hbusy, keyOf]
    · simp [(h.dead hdead).1] at hbusy
    · simp [record, hbusy]

end Slot

namespace ManagedExecutor

/-- The slots that answer for a job. -/
def holders (e : ManagedExecutor N) (ticket : ℕ) : ℕ := (e.slots 0).holding ticket + (e.slots 1).holding ticket

theorem holders_setSlot (e : ManagedExecutor N) (index : Fin workers) (slot : Slot N) (ticket : ℕ) :
    (e.setSlot index slot).holders ticket + (e.slots index).holding ticket = e.holders ticket + slot.holding ticket := by
  fin_cases index
  · simp only [setSlot, holders, Function.update, Fin.zero_eta, dite_true, one_ne_zero, dite_false, eq_rec_constant]
    omega
  · simp only [setSlot, holders, Function.update, Fin.mk_one, dite_true, zero_ne_one, dite_false, eq_rec_constant]
    omega

structure Sound (e : ManagedExecutor N) : Prop where
  slot : ∀ i, (e.slots i).Sound e.closed
  held : ∀ i ticket correlation deadline, (e.slots i).record = some (ticket, correlation, deadline) →
    e.accepted[ticket]? = some ⟨i, correlation, deadline⟩
  counted : ∀ ticket, (e.delivered.map Prod.fst).count ticket + e.holders ticket = if ticket < e.accepted.length then 1 else 0
  own : ∀ ticket completion, (ticket, completion) ∈ e.delivered →
    ∃ admitted, e.accepted[ticket]? = some admitted ∧ completion.correlation = admitted.correlation

theorem new_sound : (new : ManagedExecutor N).Sound :=
  { slot := fun _ => Slot.start_sound
    held := fun _ _ _ _ h => absurd h (by simp [new, Slot.record, Slot.start])
    counted := fun _ => rfl
    own := fun _ _ h => absurd h (by simp [new]) }

/-- Slots may change in any way that keeps the job each answers for. -/
theorem Sound.of_records {e e' : ManagedExecutor N} (h : e.Sound) (hslot : ∀ i, (e'.slots i).Sound e'.closed)
    (hrecord : ∀ i, (e'.slots i).record = (e.slots i).record) (haccepted : e'.accepted = e.accepted)
    (hdelivered : e'.delivered = e.delivered) : e'.Sound := by
  refine ⟨hslot, ?_, ?_, ?_⟩
  · intro i
    rw [hrecord, haccepted]
    exact h.held i
  · intro ticket
    simp only [hdelivered, haccepted, holders, Slot.holding, hrecord]
    exact h.counted ticket
  · rw [hdelivered, haccepted]
    exact h.own

theorem Sound.setSlot {e : ManagedExecutor N} (h : e.Sound) (index : Fin workers) {slot : Slot N} (hslot : slot.Sound e.closed)
    (hrecord : slot.record = (e.slots index).record) : (e.setSlot index slot).Sound := by
  refine h.of_records (fun i => ?_) (fun i => ?_) rfl rfl
  · by_cases hi : i = index
    · subst hi
      rw [setSlot_self]
      exact hslot
    · rw [setSlot_of_ne e slot hi]
      exact h.slot i
  · by_cases hi : i = index
    · subst hi
      rw [setSlot_self, hrecord]
    · rw [setSlot_of_ne e slot hi]

theorem Sound.work {e : ManagedExecutor N} (h : e.Sound) (index : Fin workers) (step : WorkerStep N) : (e.work index step).Sound :=
  h.setSlot index (Slot.move_sound (h.slot index) step) rfl

theorem getElem?_of_append {α : Type} {l : List α} {a b : α} {k : ℕ} (h : l[k]? = some a) : (l ++ [b])[k]? = some a := by
  obtain ⟨hk, _⟩ := List.getElem?_eq_some_iff.1 h
  rw [List.getElem?_append_left hk, h]

/-- A job is admitted to an idle slot. -/
theorem Sound.accept {e : ManagedExecutor N} (h : e.Sound) (index cursor : Fin workers) {slot : Slot N} {correlation : Correlation}
    {deadline : ℕ} (hslot : slot.Sound e.closed) (hidle : (e.slots index).busy = none)
    (hrecord : slot.record = some (e.accepted.length, correlation, deadline)) :
    Sound { e.setSlot index slot with cursor := cursor, accepted := e.accepted ++ [⟨index, correlation, deadline⟩] } := by
  refine ⟨fun i => ?_, fun i ticket correlation' deadline' hi => ?_, fun ticket => ?_, fun ticket completion hmem => ?_⟩
  · by_cases hi : i = index
    · subst hi
      rw [setSlot_self]
      exact hslot
    · rw [setSlot_of_ne e slot hi]
      exact h.slot i
  · by_cases heq : i = index
    · subst heq
      rw [setSlot_self, hrecord] at hi
      obtain ⟨rfl, hrest⟩ := Prod.mk.inj (Option.some.inj hi)
      obtain ⟨rfl, rfl⟩ := Prod.mk.inj hrest
      simp
    · rw [setSlot_of_ne e slot heq] at hi
      exact getElem?_of_append (h.held i ticket correlation' deadline' hi)
  · have hsum := holders_setSlot e index slot ticket
    have hbefore := h.counted ticket
    have hempty : (e.slots index).holding ticket = 0 := by simp [Slot.holding, Slot.record, hidle]
    have hnew : slot.holding ticket = if ticket = e.accepted.length then 1 else 0 := by
      simp [Slot.holding, hrecord, eq_comm]
    show (e.delivered.map Prod.fst).count ticket + (e.setSlot index slot).holders ticket = _
    rw [hnew, hempty] at hsum
    simp only [List.length_append, List.length_singleton]
    split_ifs at hbefore hsum ⊢ <;> omega
  · obtain ⟨admitted, hadmitted, hown⟩ := h.own ticket completion hmem
    exact ⟨admitted, getElem?_of_append hadmitted, hown⟩

/-- A slot's job is answered. -/
theorem Sound.deliver {e : ManagedExecutor N} (h : e.Sound) (index cursor : Fin workers) {slot : Slot N} {busy : Busy}
    {completion : ComponentCompletion N} (hslot : slot.Sound e.closed) (hbusy : (e.slots index).busy = some busy)
    (hown : completion.correlation = busy.correlation) (hrecord : slot.record = none) :
    Sound { e.setSlot index slot with cursor := cursor, delivered := e.delivered ++ [(busy.ticket, completion)] } := by
  have hheld := h.held index busy.ticket busy.correlation busy.deadline (by simp [Slot.record, hbusy])
  refine ⟨fun i => ?_, fun i ticket correlation' deadline' hi => ?_, fun ticket => ?_, fun ticket completion' hmem => ?_⟩
  · by_cases hi : i = index
    · subst hi
      rw [setSlot_self]
      exact hslot
    · rw [setSlot_of_ne e slot hi]
      exact h.slot i
  · by_cases heq : i = index
    · subst heq
      rw [setSlot_self, hrecord] at hi
      cases hi
    · rw [setSlot_of_ne e slot heq] at hi
      exact h.held i ticket correlation' deadline' hi
  · have hsum := holders_setSlot e index slot ticket
    have hbefore := h.counted ticket
    have hold : (e.slots index).holding ticket = if busy.ticket = ticket then 1 else 0 := by
      simp [Slot.holding, Slot.record, hbusy]
    have hnew : slot.holding ticket = 0 := by simp [Slot.holding, hrecord]
    show ((e.delivered ++ [(busy.ticket, completion)]).map Prod.fst).count ticket + (e.setSlot index slot).holders ticket = _
    rw [hnew, hold] at hsum
    simp only [List.map_append, List.map_cons, List.map_nil, List.count_append, List.count_cons, List.count_nil, beq_iff_eq]
    show _ = if ticket < e.accepted.length then 1 else 0
    split_ifs at hbefore hsum ⊢ <;> omega
  · rcases List.mem_append.1 hmem with hmem | hmem
    · exact h.own ticket completion' hmem
    · obtain ⟨rfl, rfl⟩ := Prod.mk.inj (List.mem_singleton.1 hmem)
      exact ⟨_, hheld, hown⟩

/-! ### Calls -/

theorem Sound.moved {e : ManagedExecutor N} (h : e.Sound) (moves : List (Fin workers × WorkerStep N)) : (e.moved moves).Sound := by
  induction moves generalizing e with
  | nil => exact h
  | cons move moves ih => exact ih (h.work move.1 move.2)

/-- What visits that neither admit nor answer a job leave as it was. -/
structure Alike (e met : ManagedExecutor N) : Prop where
  cursor : met.cursor = e.cursor
  closed : met.closed = e.closed
  accepted : met.accepted = e.accepted
  delivered : met.delivered = e.delivered
  busy : ∀ i, (met.slots i).busy = (e.slots i).busy
  dead : ∀ i, (e.slots i).lifecycle = .dead → (met.slots i).lifecycle = .dead
  alive : ∀ i, (e.slots i).busy.isSome = true → (met.slots i).lifecycle = (e.slots i).lifecycle
  ready : ∀ i, (e.slots i).worker.Ready → (met.slots i).worker.Ready

theorem Alike.refl (e : ManagedExecutor N) : e.Alike e :=
  ⟨rfl, rfl, rfl, rfl, fun _ => rfl, fun _ => id, fun _ _ => rfl, fun _ => id⟩

theorem Alike.trans {e met last : ManagedExecutor N} (h : e.Alike met) (h' : met.Alike last) : e.Alike last where
  cursor := h'.cursor.trans h.cursor
  closed := h'.closed.trans h.closed
  accepted := h'.accepted.trans h.accepted
  delivered := h'.delivered.trans h.delivered
  busy i := (h'.busy i).trans (h.busy i)
  dead i hdead := h'.dead i (h.dead i hdead)
  alive i hbusy := (h'.alive i (by rw [h.busy]; exact hbusy)).trans (h.alive i hbusy)
  ready i hready := h'.ready i (h.ready i hready)

theorem alike_setSlot (e : ManagedExecutor N) (index : Fin workers) {slot : Slot N} (hbusy : slot.busy = (e.slots index).busy)
    (hdead : (e.slots index).lifecycle = .dead → slot.lifecycle = .dead)
    (halive : (e.slots index).busy.isSome = true → slot.lifecycle = (e.slots index).lifecycle)
    (hready : (e.slots index).worker.Ready → slot.worker.Ready) : e.Alike (e.setSlot index slot) := by
  refine ⟨rfl, rfl, rfl, rfl, fun i => ?_, fun i => ?_, fun i => ?_, fun i => ?_⟩
  all_goals
    by_cases hi : i = index
    · subst hi
      rw [setSlot_self]
      assumption
    · rw [setSlot_of_ne e slot hi]
      try simp

theorem alike_moved (e : ManagedExecutor N) (moves : List (Fin workers × WorkerStep N)) : e.Alike (e.moved moves) := by
  induction moves generalizing e with
  | nil => exact .refl e
  | cons move moves ih =>
    have hwork : e.Alike (e.work move.1 move.2) :=
      alike_setSlot e move.1 rfl id (fun _ => rfl) (Worker.move_moves _ _ move.2).ready
    exact hwork.trans (ih _)

/-- Polling the slot yields the answer to the job it is busy with. -/
def Due (e : ManagedExecutor N) (i : Fin workers) : Prop :=
  (e.slots i).lifecycle = .alive ∧ (e.slots i).busy.isSome = true ∧ (e.slots i).worker.Ready

theorem Alike.due {e met : ManagedExecutor N} (h : e.Alike met) {i : Fin workers} (hdue : e.Due i) : met.Due i := by
  obtain ⟨hlive, hbusy, hready⟩ := hdue
  refine ⟨?_, ?_, h.ready i hready⟩
  · rw [h.alive i hbusy, hlive]
  · rw [h.busy, hbusy]

/-- What offering a job to the remaining slots comes to. -/
theorem submitFrom_cases (visits : Fin workers → Visit N) (invocation : Invocation N) (offs : List (Fin workers)) (alive : ℕ)
    {e : ManagedExecutor N} (h : e.Sound) (hopen : e.closed = false) :
    ∃ met, met.Sound ∧ e.Alike met ∧
      (submitFrom visits invocation offs alive e = (.error .deadline, met) ∨
      submitFrom visits invocation offs alive e = (.error .busy, met) ∧
        (alive = 0 → ∃ offset ∈ offs, (met.slots (met.cursor + offset)).lifecycle = .alive) ∧
        (∀ offset ∈ offs, (met.slots (met.cursor + offset)).lifecycle = .alive →
          (met.slots (met.cursor + offset)).busy.isSome = true) ∨
      submitFrom visits invocation offs alive e = (.error .executor, met) ∧ alive = 0 ∧
        (∀ offset ∈ offs, (met.slots (met.cursor + offset)).lifecycle = .dead) ∨
      ∃ index slot deadline, (met.slots index).lifecycle = .alive ∧ (met.slots index).busy = none ∧ slot.Sound met.closed ∧
        slot.record = some (met.accepted.length, invocation.correlation, deadline) ∧
        submitFrom visits invocation offs alive e =
          (.ok (), { met.setSlot index slot with
            cursor := index + 1, accepted := met.accepted ++ [⟨index, invocation.correlation, deadline⟩] })) := by
  induction offs generalizing alive e with
  | nil =>
    refine ⟨e, h, .refl e, ?_⟩
    by_cases halive : alive = 0
    · exact .inr (.inr (.inl ⟨by simp [submitFrom, halive], halive, by simp⟩))
    · exact .inr (.inl ⟨by simp [submitFrom, halive], fun hzero => absurd hzero halive, by simp⟩)
  | cons offset offs ih =>
    have hmet := h.moved (visits offset).moves
    have halike := alike_moved e (visits offset).moves
    have hclosed := halike.closed.trans hopen
    rw [submitFrom]
    generalize e.moved (visits offset).moves = met at hmet halike hclosed
    dsimp only
    obtain ⟨hoffer, hdead⟩ | ⟨hoffer, hlive, hbusy⟩ | hoffer | ⟨deadline, hlive, hidle, hjobs, hoffer⟩ :=
      @Slot.offer_cases N _ _ (visits offset).now invocation met.accepted.length
        (hmet.slot (met.cursor + offset)) hclosed
    · rw [hoffer]
      obtain ⟨last, hlast, hsame, hcases⟩ := ih alive hmet hclosed
      have hgone : (last.slots (last.cursor + offset)).lifecycle = .dead := by
        rw [hsame.cursor]
        exact hsame.dead _ hdead
      refine ⟨last, hlast, halike.trans hsame, ?_⟩
      obtain hlate | ⟨hfull, hsome, hall⟩ | ⟨hnone, hzero, hall⟩ | htaken := hcases
      · exact .inl hlate
      · refine .inr (.inl ⟨hfull, fun hzero => ?_, ?_⟩)
        · obtain ⟨other, hmem, hother⟩ := hsome hzero
          exact ⟨other, List.mem_cons_of_mem _ hmem, hother⟩
        · rw [List.forall_mem_cons]
          exact ⟨fun hlive => by simp [hgone] at hlive, hall⟩
      · refine .inr (.inr (.inl ⟨hnone, hzero, ?_⟩))
        rw [List.forall_mem_cons]
        exact ⟨hgone, hall⟩
      · exact .inr (.inr (.inr htaken))
    · rw [hoffer]
      obtain ⟨last, hlast, hsame, hcases⟩ := ih (alive + 1) hmet hclosed
      have hheld : (last.slots (last.cursor + offset)).lifecycle = .alive ∧ (last.slots (last.cursor + offset)).busy.isSome = true := by
        rw [hsame.cursor, hsame.alive _ hbusy, hsame.busy]
        exact ⟨hlive, hbusy⟩
      refine ⟨last, hlast, halike.trans hsame, ?_⟩
      obtain hlate | ⟨hfull, _, hall⟩ | ⟨_, hzero, _⟩ | htaken := hcases
      · exact .inl hlate
      · refine .inr (.inl ⟨hfull, fun _ => ⟨offset, List.mem_cons_self, hheld.1⟩, ?_⟩)
        rw [List.forall_mem_cons]
        exact ⟨fun _ => hheld.2, hall⟩
      · omega
      · exact .inr (.inr (.inr htaken))
    · rw [hoffer]
      exact ⟨met, hmet, halike, .inl rfl⟩
    · rw [hoffer]
      exact ⟨met, hmet, halike, .inr (.inr (.inr ⟨_, _, deadline, hlive, hidle,
        Slot.taken_sound (hmet.slot _) hlive hidle hjobs, rfl, rfl⟩))⟩

/-- Collecting from slots answers the first that is due, or none is. -/
def Polled (visits : Fin workers → Visit N) (offs : List (Fin workers)) (e : ManagedExecutor N)
    (r : Option (ℕ × ComponentCompletion N) × ManagedExecutor N) : Prop :=
  ∃ met, met.Sound ∧ e.Alike met ∧
    (r = (none, met) ∧ (∀ offset ∈ offs, ¬ e.Due (e.cursor + offset)) ∨
    ∃ before offset after busy completion slot, offs = before ++ offset :: after ∧
      (∀ other ∈ before, ¬ e.Due (e.cursor + other)) ∧
      (met.slots (met.cursor + offset)).busy = some busy ∧ completion.correlation = busy.correlation ∧
      (completion.timely = true → busy.expired = false ∧ (visits offset).now < busy.deadline) ∧
      slot.Sound met.closed ∧ slot.record = none ∧
      r = (some (busy.ticket, completion), { met.setSlot (met.cursor + offset) slot with
            cursor := met.cursor + offset + 1, delivered := met.delivered ++ [(busy.ticket, completion)] }))

theorem Polled.skip {visits : Fin workers → Visit N} {offset : Fin workers} {offs : List (Fin workers)} {e next : ManagedExecutor N}
    {r : Option (ℕ × ComponentCompletion N) × ManagedExecutor N} (hlike : e.Alike next) (hidle : ¬ e.Due (e.cursor + offset))
    (h : Polled visits offs next r) : Polled visits (offset :: offs) e r := by
  obtain ⟨met, hmet, hsame, hcases⟩ := h
  have hlater : ∀ {other : Fin workers}, ¬ next.Due (next.cursor + other) → ¬ e.Due (e.cursor + other) := by
    intro other hother hdue
    rw [hlike.cursor] at hother
    exact hother (hlike.due hdue)
  refine ⟨met, hmet, hlike.trans hsame, ?_⟩
  obtain ⟨hnone, hrest⟩ | ⟨before, other, after, busy, completion, slot, rfl, hrest, hfacts⟩ := hcases
  · refine .inl ⟨hnone, ?_⟩
    rw [List.forall_mem_cons]
    exact ⟨hidle, fun other hmem => hlater (hrest other hmem)⟩
  · refine .inr ⟨offset :: before, other, after, busy, completion, slot, rfl, ?_, hfacts⟩
    rw [List.forall_mem_cons]
    exact ⟨hidle, fun other hmem => hlater (hrest other hmem)⟩

theorem pollFrom_polled (visits : Fin workers → Visit N) (offs : List (Fin workers)) {e : ManagedExecutor N} (h : e.Sound) :
    Polled visits offs e (pollFrom visits offs e) := by
  induction offs generalizing e with
  | nil => exact ⟨e, h, .refl e, .inl ⟨rfl, by simp⟩⟩
  | cons offset offs ih =>
    have hmet := h.moved (visits offset).moves
    have halike := alike_moved e (visits offset).moves
    rw [pollFrom]
    generalize e.moved (visits offset).moves = met at hmet halike
    dsimp only
    obtain ⟨hcollect, hidle⟩ | ⟨busy, completion, hlive, hbusy, hown, htimely, hqueue, hwork, hcollect⟩ |
      ⟨busy, hlive, hbusy, hresults, hsender, hcollect⟩ | ⟨hlive, hbusy, hresults, hsender, hcollect⟩ :=
      @Slot.collect_cases N _ _ (visits offset).now (hmet.slot (met.cursor + offset))
    · rw [hcollect]
      have hkept : met.Alike (met.setSlot (met.cursor + offset) (met.slots (met.cursor + offset))) :=
        alike_setSlot met _ rfl id (fun _ => rfl) id
      refine .skip (halike.trans hkept) (fun hdue => ?_) (ih (hmet.setSlot _ (hmet.slot _) rfl))
      rw [← halike.cursor] at hdue
      have hready := halike.due hdue
      exact hidle hready.1 hready.2.2
    · rw [hcollect]
      refine ⟨met, hmet, halike, .inr ⟨[], offset, offs, busy, completion, _, rfl, by simp, hbusy, hown, htimely, ?_, rfl, rfl⟩⟩
      exact Slot.collected_sound (hmet.slot _) hlive hqueue hwork
    · rw [hcollect]
      refine ⟨met, hmet, halike, .inr ⟨[], offset, offs, busy, _, _, rfl, by simp, hbusy, rfl, by simp, ?_, rfl, rfl⟩⟩
      exact Slot.dead_sound (hmet.slot _) hresults hsender
    · rw [hcollect]
      have hgone := Slot.dead_sound (hmet.slot (met.cursor + offset)) hresults hsender
      rw [← hbusy] at hgone
      have hkept : met.Alike (met.setSlot (met.cursor + offset)
          { met.slots (met.cursor + offset) with lifecycle := .dead, jobs := false }) :=
        alike_setSlot met _ rfl (fun _ => rfl) (by simp [hbusy]) id
      refine .skip (halike.trans hkept) (fun hdue => ?_) (ih (hmet.setSlot _ hgone rfl))
      rw [← halike.cursor] at hdue
      have hsome := (halike.due hdue).2.1
      simp [hbusy] at hsome

/-! ### Runs -/

/-- What a call that neither admits nor answers a job keeps. -/
structure Steady (e met : ManagedExecutor N) : Prop where
  cursor : met.cursor = e.cursor
  accepted : met.accepted = e.accepted
  delivered : met.delivered = e.delivered
  record : ∀ i, (met.slots i).record = (e.slots i).record
  dead : ∀ i, (e.slots i).lifecycle = .dead → (met.slots i).lifecycle = .dead
  due : ∀ i, e.Due i → met.Due i

theorem Alike.steady {e met : ManagedExecutor N} (h : e.Alike met) : e.Steady met where
  cursor := h.cursor
  accepted := h.accepted
  delivered := h.delivered
  record i := by rw [Slot.record, h.busy, Slot.record]
  dead := h.dead
  due _ := h.due

/-- A change of the slots that keeps every job and every thread. -/
theorem steady_of_slots {e met : ManagedExecutor N} (hcursor : met.cursor = e.cursor) (haccepted : met.accepted = e.accepted)
    (hdelivered : met.delivered = e.delivered) (hrecord : ∀ i, (met.slots i).record = (e.slots i).record)
    (hlife : ∀ i, (met.slots i).lifecycle = (e.slots i).lifecycle) (hworker : ∀ i, (met.slots i).worker = (e.slots i).worker) :
    e.Steady met where
  cursor := hcursor
  accepted := haccepted
  delivered := hdelivered
  record := hrecord
  dead i hdead := (hlife i).trans hdead
  due i hdue := by
    obtain ⟨hlive, hbusy, hready⟩ := hdue
    refine ⟨(hlife i).trans hlive, ?_, ?_⟩
    · have hsome := congrArg Option.isSome (hrecord i)
      simp only [Slot.record, Option.isSome_map] at hsome
      rw [hsome]
      exact hbusy
    · rw [hworker]
      exact hready

theorem expireFrom_keeps {correlation : Correlation} {now : Fin workers → ℕ} {offs : List (Fin workers)} {e : ManagedExecutor N}
    (h : e.Sound) : (expireFrom correlation now offs e).2.Sound ∧ e.Steady (expireFrom correlation now offs e).2 := by
  induction offs with
  | nil => exact ⟨h, (Alike.refl e).steady⟩
  | cons index offs ih =>
    rw [expireFrom]
    cases hexpire : (e.slots index).expire correlation (now index) with
    | none => exact ih
    | some slot =>
      obtain ⟨hslot, hrecord, hlife, hworker⟩ := Slot.expire_keeps (h.slot index) hexpire
      refine ⟨h.setSlot index hslot hrecord, steady_of_slots rfl rfl rfl (fun i => ?_) (fun i => ?_) (fun i => ?_)⟩
      all_goals
        by_cases hi : i = index
        · subst hi
          rw [setSlot_self]
          assumption
        · rw [setSlot_of_ne e slot hi]

/-! ### Answers -/

def Answered (e : ManagedExecutor N) (ticket : ℕ) : Prop := ∃ completion, (ticket, completion) ∈ e.delivered

theorem next_of_ne {i index : Fin workers} (h : i ≠ index) : index + 1 = i := by
  revert h
  revert i index
  decide

theorem visited (cursor i : Fin workers) : ∃ offset ∈ offsets, cursor + offset = i := by
  revert cursor i
  decide

/-- A poll answers what is due, or gives it the next turn. -/
theorem poll_due {e : ManagedExecutor N} (h : e.Sound) (visits : Fin workers → Visit N) {i : Fin workers} {ticket : ℕ}
    (hdue : e.Due i) (hticket : (e.slots i).record.map Prod.fst = some ticket) :
    (e.tryPoll visits).2.Answered ticket ∨ (e.tryPoll visits).2.cursor = i ∧ e.cursor ≠ i := by
  obtain ⟨met, _, halike, hcases⟩ := pollFrom_polled visits offsets h
  obtain ⟨_, hnone⟩ | ⟨before, offset, after, busy, completion, slot, hoffsets, hskipped, hbusy, _, _, _, _, hsome⟩ := hcases
  · obtain ⟨offset, hmem, rfl⟩ := visited e.cursor i
    exact absurd hdue (hnone offset hmem)
  · rw [tryPoll, hsome]
    by_cases hi : i = met.cursor + offset
    · subst hi
      rw [← halike.steady.record] at hticket
      obtain rfl : busy.ticket = ticket := by simpa [Slot.record, hbusy] using hticket
      exact .inl ⟨completion, List.mem_append_right _ List.mem_cons_self⟩
    · refine .inr ⟨next_of_ne hi, fun hcursor => ?_⟩
      -- the slot whose turn it is comes first, so it was either answered or passed over
      cases before with
      | nil =>
        obtain ⟨rfl, _⟩ := List.cons.inj hoffsets
        exact hi (by rw [halike.cursor, hcursor, add_zero])
      | cons first before =>
        obtain ⟨rfl, _⟩ := List.cons.inj hoffsets
        exact hskipped 0 List.mem_cons_self (by rwa [hcursor, add_zero])

/-- A thread still has this job: queued, running, or unwinding with its end of the mailbox in place. -/
def Held (e : ManagedExecutor N) (ticket : ℕ) : Prop := ∃ i, (e.slots i).worker.Holds ticket

/-- An admitted job that no thread has any more is answered or due. -/
theorem Sound.answered_or_due {e : ManagedExecutor N} (h : e.Sound) {ticket : ℕ} (hlt : ticket < e.accepted.length)
    (hheld : ¬ e.Held ticket) : e.Answered ticket ∨ ∃ i, e.Due i ∧ (e.slots i).record.map Prod.fst = some ticket := by
  have hcount := h.counted ticket
  rw [if_pos hlt] at hcount
  by_cases hanswered : ticket ∈ e.delivered.map Prod.fst
  · obtain ⟨⟨_, completion⟩, hmem, rfl⟩ := List.mem_map.1 hanswered
    exact .inl ⟨completion, hmem⟩
  · rw [List.count_eq_zero_of_not_mem hanswered, Nat.zero_add, holders] at hcount
    obtain ⟨i, hrecord⟩ : ∃ i, (e.slots i).record.map Prod.fst = some ticket := by
      by_contra hnone
      have hzero : ∀ i, (e.slots i).holding ticket = 0 := fun i => if_neg fun hi => hnone ⟨i, hi⟩
      rw [hzero, hzero] at hcount
      omega
    refine .inr ⟨i, ?_, hrecord⟩
    obtain ⟨busy, hbusy, rfl⟩ : ∃ busy, (e.slots i).busy = some busy ∧ busy.ticket = ticket := by
      cases hbusy : (e.slots i).busy with
      | none => simp [Slot.record, hbusy] at hrecord
      | some busy => exact ⟨busy, rfl, by simpa [Slot.record, hbusy] using hrecord⟩
    have hlive : (e.slots i).lifecycle = .alive := by
      cases hlife : (e.slots i).lifecycle with
      | alive => rfl
      | dead => simp [((h.slot i).dead hlife).1] at hbusy
    refine ⟨hlive, by rw [hbusy]; rfl, ?_⟩
    exact (h.slot i).ready_of_not_holds hlive hbusy fun hholds => hheld ⟨i, hholds⟩


theorem Sound.timely {e : ManagedExecutor N} (h : e.Sound) {visits : Fin workers → Visit N} {ticket : ℕ}
    {completion : ComponentCompletion N} (hpoll : (e.tryPoll visits).1 = some (ticket, completion))
    (htimely : completion.timely = true) :
    ∃ offset busy, (e.slots (e.cursor + offset)).busy = some busy ∧ busy.correlation = completion.correlation ∧
      busy.expired = false ∧ (visits offset).now < busy.deadline ∧
      e.accepted[ticket]? = some ⟨e.cursor + offset, completion.correlation, busy.deadline⟩ := by
  obtain ⟨met, _, halike, ⟨hnone, _⟩ | ⟨_, offset, _, busy, answer, slot, _, _, hbusy, hown, hlate, _, _, hsome⟩⟩ :=
    pollFrom_polled visits offsets h
  · rw [tryPoll, hnone] at hpoll
    cases hpoll
  · rw [tryPoll, hsome] at hpoll
    obtain ⟨rfl, rfl⟩ := Prod.mk.inj (Option.some.inj hpoll)
    rw [halike.busy, halike.cursor] at hbusy
    obtain ⟨hexpired, hnow⟩ := hlate htimely
    refine ⟨offset, busy, hbusy, hown.symm, hexpired, hnow, ?_⟩
    rw [hown]
    exact h.held _ _ _ _ (by simp [Slot.record, hbusy])

theorem Sound.once {e : ManagedExecutor N} (h : e.Sound) (ticket : ℕ) : (e.delivered.map Prod.fst).count ticket ≤ 1 := by
  have hcount := h.counted ticket
  split_ifs at hcount <;> omega

/-! ### Steps -/

variable [Scalar N]

/-- Everything a step of a run can do: change no job, admit one to an idle live slot, or answer one. -/
theorem apply_cases {e : ManagedExecutor N} (h : e.Sound) (op : Op N) :
    ∃ met, met.Sound ∧ e.Steady met ∧
      (e.apply op = met ∨
      (∃ index slot correlation deadline, (met.slots index).lifecycle = .alive ∧ (met.slots index).busy = none ∧
        slot.Sound met.closed ∧ slot.record = some (met.accepted.length, correlation, deadline) ∧
        e.apply op = { met.setSlot index slot with
          cursor := index + 1, accepted := met.accepted ++ [⟨index, correlation, deadline⟩] }) ∨
      ∃ index slot busy completion, (met.slots index).busy = some busy ∧ completion.correlation = busy.correlation ∧
        slot.Sound met.closed ∧ slot.record = none ∧
        e.apply op = { met.setSlot index slot with
          cursor := index + 1, delivered := met.delivered ++ [(busy.ticket, completion)] }) := by
  cases op with
  | submit visits invocation =>
    simp only [apply, trySubmit]
    cases hvalid : Registry.validateInvocation invocation with
    | error error => exact ⟨e, h, (Alike.refl e).steady, .inl rfl⟩
    | ok _ =>
      by_cases hclosed : e.closed = true
      · dsimp only
        rw [if_pos hclosed]
        exact ⟨e, h, (Alike.refl e).steady, .inl rfl⟩
      · dsimp only
        rw [if_neg hclosed]
        obtain ⟨met, hmet, halike, hcases⟩ := submitFrom_cases visits invocation offsets 0 h (by simpa using hclosed)
        refine ⟨met, hmet, halike.steady, ?_⟩
        obtain hlate | ⟨hfull, _⟩ | ⟨hnone, _⟩ | ⟨index, slot, deadline, hlive, hidle, hslot, hrecord, htaken⟩ := hcases
        · exact .inl (by rw [hlate])
        · exact .inl (by rw [hfull])
        · exact .inl (by rw [hnone])
        · exact .inr (.inl ⟨index, slot, _, deadline, hlive, hidle, hslot, hrecord, by rw [htaken]⟩)
  | poll visits =>
    simp only [apply, tryPoll]
    obtain ⟨met, hmet, halike, hcases⟩ := pollFrom_polled visits offsets h
    refine ⟨met, hmet, halike.steady, ?_⟩
    obtain ⟨hnone, _⟩ | ⟨_, offset, _, busy, completion, slot, _, _, hbusy, hown, _, hslot, hrecord, hsome⟩ := hcases
    · exact .inl (by rw [hnone])
    · exact .inr (.inr ⟨met.cursor + offset, slot, busy, completion, hbusy, hown, hslot, hrecord, by rw [hsome]⟩)
  | cancel correlation =>
    refine ⟨e.tryCancel correlation, h.of_records (fun i => Slot.cancel_sound (h.slot i) _) (fun i => Slot.cancel_record _ _) rfl rfl,
      steady_of_slots rfl rfl rfl (fun i => Slot.cancel_record _ _) (fun _ => rfl) (fun _ => rfl), .inl rfl⟩
  | expire correlation now =>
    obtain ⟨hsound, hsteady⟩ : (expireFrom correlation now offsets e).2.Sound ∧
        e.Steady (expireFrom correlation now offsets e).2 := expireFrom_keeps h
    exact ⟨_, hsound, hsteady, .inl rfl⟩
  | shutdown =>
    refine ⟨e.beginShutdown, h.of_records (fun i => Slot.shutdown_sound (h.slot i)) (fun i => Slot.shutdown_record _) rfl rfl,
      steady_of_slots rfl rfl rfl (fun i => Slot.shutdown_record _) (fun _ => rfl) (fun _ => rfl), .inl rfl⟩
  | work index step =>
    have hwork : e.Alike (e.work index step) :=
      alike_setSlot e index rfl id (fun _ => rfl) (Worker.move_moves _ _ step).ready
    exact ⟨_, h.work index step, hwork.steady, .inl rfl⟩

theorem Sound.apply {e : ManagedExecutor N} (h : e.Sound) (op : Op N) : (e.apply op).Sound := by
  obtain ⟨met, hmet, _, heq | ⟨index, slot, correlation, deadline, _, hidle, hslot, hrecord, heq⟩ |
    ⟨index, slot, busy, completion, hbusy, hown, hslot, hrecord, heq⟩⟩ := apply_cases h op
  · exact heq ▸ hmet
  · exact heq ▸ hmet.accept index _ hslot hidle hrecord
  · exact heq ▸ hmet.deliver index _ hslot hbusy hown hrecord

theorem Sound.run {e : ManagedExecutor N} (h : e.Sound) (ops : List (Op N)) : (e.run ops).Sound := by
  induction ops generalizing e with
  | nil => exact h
  | cons op ops ih => exact ih (h.apply op)

theorem apply_delivered {e : ManagedExecutor N} (h : e.Sound) (op : Op N) : e.delivered <+: (e.apply op).delivered := by
  obtain ⟨met, _, hsteady, heq | ⟨_, _, _, _, _, _, _, _, heq⟩ | ⟨_, _, busy, completion, _, _, _, _, heq⟩⟩ := apply_cases h op
  · rw [heq, hsteady.delivered]
  · rw [heq]
    exact hsteady.delivered ▸ List.prefix_refl _
  · rw [heq, ← hsteady.delivered]
    exact List.prefix_append _ _

theorem run_delivered {e : ManagedExecutor N} (h : e.Sound) (ops : List (Op N)) : e.delivered <+: (e.run ops).delivered := by
  induction ops generalizing e with
  | nil => exact List.prefix_refl _
  | cons op ops ih => exact (apply_delivered h op).trans (ih (h.apply op))

/-- What is due stays due until it is answered, and once its turn has come it keeps it. -/
theorem apply_due {e : ManagedExecutor N} (h : e.Sound) (op : Op N) {i : Fin workers} {ticket : ℕ} (hdue : e.Due i)
    (hticket : (e.slots i).record.map Prod.fst = some ticket) :
    (e.apply op).Answered ticket ∨
      (e.apply op).Due i ∧ ((e.apply op).slots i).record.map Prod.fst = some ticket ∧
        (e.cursor = i → (e.apply op).cursor = i) := by
  obtain ⟨met, _, hsteady, hcases⟩ := apply_cases h op
  have hmet := hsteady.due i hdue
  rw [← hsteady.record] at hticket
  obtain heq | ⟨index, slot, correlation, deadline, _, hidle, _, _, heq⟩ | ⟨index, slot, busy, completion, hbusy, _, _, _, heq⟩ :=
    hcases
  · refine .inr ?_
    rw [heq, hsteady.cursor]
    exact ⟨hmet, hticket, id⟩
  · have hne : i ≠ index := by
      rintro rfl
      have hsome := hmet.2.1
      simp [hidle] at hsome
    refine .inr ?_
    rw [heq]
    simp only [Due, setSlot_of_ne met slot hne]
    exact ⟨hmet, hticket, fun _ => next_of_ne hne⟩
  · by_cases hi : i = index
    · subst hi
      obtain rfl : busy.ticket = ticket := by simpa [Slot.record, hbusy] using hticket
      refine .inl ⟨completion, ?_⟩
      rw [heq]
      exact List.mem_append_right _ List.mem_cons_self
    · refine .inr ?_
      rw [heq]
      simp only [Due, setSlot_of_ne met slot hi]
      exact ⟨hmet, hticket, fun _ => next_of_ne hi⟩

def Op.isPoll : Op N → Bool
  | .poll _ => true
  | _ => false

/-- Two polls answer what is due, whatever else happens between them. -/
theorem run_answers {e : ManagedExecutor N} (h : e.Sound) (ops : List (Op N)) {i : Fin workers} {ticket : ℕ} (hdue : e.Due i)
    (hticket : (e.slots i).record.map Prod.fst = some ticket)
    (hpolls : (if e.cursor = i then 1 else 2) ≤ ops.countP Op.isPoll) : (e.run ops).Answered ticket := by
  induction ops generalizing e with
  | nil =>
    rw [List.countP_nil] at hpolls
    split_ifs at hpolls <;> omega
  | cons op ops ih =>
    have hkept : (e.apply op).Answered ticket → (e.run (op :: ops)).Answered ticket := by
      rintro ⟨completion, hmem⟩
      exact ⟨completion, (run_delivered (h.apply op) ops).subset hmem⟩
    obtain hanswered | ⟨hdue', hticket', hturn⟩ := apply_due h op hdue hticket
    · exact hkept hanswered
    · cases hop : op.isPoll with
      | false =>
        refine ih (h.apply op) hdue' hticket' ?_
        rw [List.countP_cons_of_neg (by simp [hop])] at hpolls
        by_cases hcursor : e.cursor = i
        · rw [if_pos (hturn hcursor)]
          rwa [if_pos hcursor] at hpolls
        · rw [if_neg hcursor] at hpolls
          split_ifs <;> omega
      | true =>
        obtain ⟨visits, rfl⟩ : ∃ visits, op = .poll visits := by
          cases op <;> simp_all [Op.isPoll]
        obtain hanswered | ⟨hcursor', hcursor⟩ := poll_due h visits hdue hticket
        · exact hkept hanswered
        · refine ih (h.apply _) hdue' hticket' ?_
          rw [List.countP_cons_of_pos hop, if_neg hcursor] at hpolls
          rw [if_pos (show (e.apply (.poll visits)).cursor = i from hcursor')]
          omega

/-! ### The contract -/

/-- A dead slot stays dead and is given no job. -/
theorem apply_dead {e : ManagedExecutor N} (h : e.Sound) (op : Op N) {i : Fin workers} (hdead : (e.slots i).lifecycle = .dead) :
    ((e.apply op).slots i).lifecycle = .dead ∧
      ∃ more, (e.apply op).accepted = e.accepted ++ more ∧ ∀ admitted ∈ more, admitted.slot ≠ i := by
  obtain ⟨met, hmet, hsteady, hcases⟩ := apply_cases h op
  have hgone := hsteady.dead i hdead
  obtain heq | ⟨index, slot, correlation, deadline, hlive, _, _, _, heq⟩ | ⟨index, slot, busy, completion, hbusy, _, _, _, heq⟩ :=
    hcases
  · rw [heq]
    exact ⟨hgone, [], by rw [hsteady.accepted, List.append_nil], by simp⟩
  · have hne : i ≠ index := by
      rintro rfl
      simp [hgone] at hlive
    rw [heq]
    refine ⟨?_, [⟨index, correlation, deadline⟩], by rw [hsteady.accepted], ?_⟩
    · simp only [setSlot_of_ne met slot hne]
      exact hgone
    · intro admitted hmem
      obtain rfl := List.mem_singleton.1 hmem
      exact hne.symm
  · have hne : i ≠ index := by
      rintro rfl
      simp [((hmet.slot i).dead hgone).1] at hbusy
    rw [heq]
    refine ⟨?_, [], ?_, by simp⟩
    · simp only [setSlot_of_ne met slot hne]
      exact hgone
    · rw [List.append_nil, ← hsteady.accepted]
      rfl

theorem run_dead {e : ManagedExecutor N} (h : e.Sound) (ops : List (Op N)) {i : Fin workers} (hdead : (e.slots i).lifecycle = .dead) :
    ((e.run ops).slots i).lifecycle = .dead ∧
      ∃ more, (e.run ops).accepted = e.accepted ++ more ∧ ∀ admitted ∈ more, admitted.slot ≠ i := by
  induction ops generalizing e with
  | nil => exact ⟨hdead, [], (List.append_nil _).symm, by simp⟩
  | cons op ops ih =>
    obtain ⟨hnext, more, haccepted, hmore⟩ := apply_dead h op hdead
    obtain ⟨hlast, rest, hrest, hnone⟩ := ih (h.apply op) hnext
    refine ⟨hlast, more ++ rest, ?_, ?_⟩
    · rw [← List.append_assoc, ← haccepted]
      exact hrest
    · intro admitted hmem
      rcases List.mem_append.1 hmem with hmem | hmem
      · exact hmore admitted hmem
      · exact hnone admitted hmem

/-- What the pool promises at a state of a run. -/
structure Contract (e : ManagedExecutor N) : Prop where
  /-- The history of admissions is that of the calls that returned success. -/
  admits : ∀ visits invocation, (e.trySubmit visits invocation).1 = .ok () →
    ∃ slot deadline, (e.trySubmit visits invocation).2.accepted = e.accepted ++ [⟨slot, invocation.correlation, deadline⟩]
  refuses : ∀ visits invocation error, (e.trySubmit visits invocation).1 = .error error →
    (e.trySubmit visits invocation).2.accepted = e.accepted
  once : ∀ ticket, (e.delivered.map Prod.fst).count ticket ≤ 1
  own : ∀ ticket completion, (ticket, completion) ∈ e.delivered →
    ∃ admitted, e.accepted[ticket]? = some admitted ∧ completion.correlation = admitted.correlation
  /-- A job whose thread has returned from it, or died of it, is answered by two more polls. -/
  answered : ∀ ticket < e.accepted.length, ¬ e.Held ticket → ∀ ops : List (Op N), 2 ≤ ops.countP Op.isPoll →
    ((e.run ops).delivered.map Prod.fst).count ticket = 1
  timely : ∀ visits ticket completion, (e.tryPoll visits).1 = some (ticket, completion) → completion.timely = true →
    ∃ offset busy, (e.slots (e.cursor + offset)).busy = some busy ∧ busy.correlation = completion.correlation ∧
      busy.expired = false ∧ (visits offset).now < busy.deadline ∧
      e.accepted[ticket]? = some ⟨e.cursor + offset, completion.correlation, busy.deadline⟩
  single : ∀ i, (e.slots i).worker.entries.length ≤ 1
  kept : ∀ i, (e.slots i).worker.lost = []
  dead : ∀ i, (e.slots i).lifecycle = .dead → ∀ ops : List (Op N), ((e.run ops).slots i).lifecycle = .dead ∧
    ∃ more, (e.run ops).accepted = e.accepted ++ more ∧ ∀ admitted ∈ more, admitted.slot ≠ i
  busy : ∀ visits invocation, (e.trySubmit visits invocation).1 = .error .busy →
    (∃ i, ((e.trySubmit visits invocation).2.slots i).lifecycle = .alive) ∧
      ∀ i, ((e.trySubmit visits invocation).2.slots i).lifecycle = .alive →
        ((e.trySubmit visits invocation).2.slots i).busy.isSome = true
  executor : ∀ visits invocation, (e.trySubmit visits invocation).1 = .error .executor →
    e.closed = true ∨ ∀ i, ((e.trySubmit visits invocation).2.slots i).lifecycle = .dead

/-- What a call of `try_submit` comes to, whatever the threads do around it. -/
theorem trySubmit_cases {e : ManagedExecutor N} (h : e.Sound) (visits : Fin workers → Visit N) (invocation : Invocation N) :
    (∃ error, e.trySubmit visits invocation = (.error error, e) ∧ (error = .invalidConfiguration ∨ error = .executor ∧ e.closed = true)) ∨
    ∃ met, e.Alike met ∧
      (e.trySubmit visits invocation = (.error .deadline, met) ∨
      e.trySubmit visits invocation = (.error .busy, met) ∧ (∃ i, (met.slots i).lifecycle = .alive) ∧
        (∀ i, (met.slots i).lifecycle = .alive → (met.slots i).busy.isSome = true) ∨
      e.trySubmit visits invocation = (.error .executor, met) ∧ (∀ i, (met.slots i).lifecycle = .dead) ∨
      ∃ index slot deadline, e.trySubmit visits invocation =
          (.ok (), { met.setSlot index slot with
            cursor := index + 1, accepted := met.accepted ++ [⟨index, invocation.correlation, deadline⟩] })) := by
  rw [trySubmit]
  cases hvalid : Registry.validateInvocation invocation with
  | error error => exact .inl ⟨error, rfl, .inl (validateInvocation_error hvalid)⟩
  | ok _ =>
    dsimp only
    by_cases hclosed : e.closed = true
    · exact .inl ⟨_, if_pos hclosed, .inr ⟨rfl, hclosed⟩⟩
    · rw [if_neg hclosed]
      obtain ⟨met, hmet, halike, hcases⟩ := submitFrom_cases visits invocation offsets 0 h (by simpa using hclosed)
      refine .inr ⟨met, halike, ?_⟩
      obtain hlate | ⟨hfull, hsome, hall⟩ | ⟨hnone, _, hall⟩ | ⟨index, slot, deadline, _, _, _, _, htaken⟩ := hcases
      · exact .inl hlate
      · obtain ⟨offset, _, hlive⟩ := hsome rfl
        refine .inr (.inl ⟨hfull, ⟨_, hlive⟩, fun i hi => ?_⟩)
        obtain ⟨offset, hmem, rfl⟩ := visited met.cursor i
        exact hall offset hmem hi
      · refine .inr (.inr (.inl ⟨hnone, fun i => ?_⟩))
        obtain ⟨offset, hmem, rfl⟩ := visited met.cursor i
        exact hall offset hmem
      · exact .inr (.inr (.inr ⟨index, slot, deadline, htaken⟩))

theorem Sound.answers {e : ManagedExecutor N} (h : e.Sound) {ticket : ℕ} (hlt : ticket < e.accepted.length) (hheld : ¬ e.Held ticket)
    {ops : List (Op N)} (hpolls : 2 ≤ ops.countP Op.isPoll) : ((e.run ops).delivered.map Prod.fst).count ticket = 1 := by
  have hanswered : (e.run ops).Answered ticket := by
    obtain ⟨completion, hmem⟩ | ⟨i, hdue, hticket⟩ := h.answered_or_due hlt hheld
    · exact ⟨completion, (run_delivered h ops).subset hmem⟩
    · refine run_answers h ops hdue hticket ?_
      split_ifs <;> omega
  obtain ⟨completion, hmem⟩ := hanswered
  have hpos := List.count_pos_iff.2 (List.mem_map_of_mem (f := Prod.fst) hmem)
  exact le_antisymm ((h.run ops).once ticket) hpos

/-- **The worker pool answers each admitted job at most once and never falsely in time**, in every
interleaving of its calls with its two threads. -/
theorem pool_answers_each_once (ops : List (Op N)) : ((new : ManagedExecutor N).run ops).Contract := by
  have h := new_sound.run ops
  generalize (new : ManagedExecutor N).run ops = e at h
  refine ⟨fun visits invocation => ?_, fun visits invocation error => ?_, h.once, h.own,
    fun ticket hlt hheld ops hpolls => h.answers hlt hheld hpolls, fun visits ticket completion => h.timely,
    fun i => (h.slot i).entries_le, fun i => (h.slot i).worker.lost, fun i hdead ops => run_dead h ops hdead,
    fun visits invocation => ?_, fun visits invocation => ?_⟩
  all_goals
    intro hresult
    obtain ⟨error, heq, herror⟩ | ⟨met, halike, heq | ⟨heq, hbusy⟩ | ⟨heq, hdead⟩ | ⟨index, slot, deadline, heq⟩⟩ :=
      trySubmit_cases h visits invocation
    all_goals rw [heq] at hresult ⊢
  · cases hresult
  · cases hresult
  · cases hresult
  · cases hresult
  · exact ⟨index, deadline, by rw [← halike.accepted]⟩
  · exact halike.accepted
  · exact halike.accepted
  · exact halike.accepted
  · cases hresult
  · obtain rfl := Except.error.inj hresult
    simp at herror
  · cases hresult
  · exact hbusy
  · cases hresult
  · cases hresult
  · obtain rfl := Except.error.inj hresult
    exact .inl (by simpa using herror)
  · cases hresult
  · cases hresult
  · exact .inr hdead
  · cases hresult

end ManagedExecutor
end LabRuntime
