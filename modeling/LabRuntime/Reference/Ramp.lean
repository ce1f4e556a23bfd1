import LabRuntime.Reference

/-! A ramp follows one course between two retunes, however often it is evaluated on the way. -/

namespace LabRuntime

open Approach

theorem seconds_nonneg (d : ℕ) : 0 ≤ seconds d := by
  unfold seconds
  positivity

theorem seconds_add (d e : ℕ) : seconds (d + e) = seconds d + seconds e := by
  unfold seconds
  push_cast
  ring

/-- The code's step is the move toward the target. -/
theorem signum_step (current target : ℚ) {s : ℚ} (hs : 0 ≤ s) :
    current + signum (target - current) * min |target - current| s = toward target current s := by
  unfold signum
  obtain h | h := le_or_gt current target
  · rw [if_neg (by linarith), abs_of_nonneg (by linarith), toward_of_le h hs, one_mul, ← min_add_add_left,
      add_sub_cancel, min_comm]
  · rw [if_pos (by linarith), abs_of_neg (by linarith), toward_of_ge h.le hs]
    obtain hnear | hfar := le_total (current - target) s
    · rw [min_eq_left (by linarith), max_eq_right (by linarith)]
      ring
    · rw [min_eq_right (by linarith), max_eq_left (by linarith)]
      ring

theorem validateRamp_ok {start target rate : Engineering} {v : ValidRamp} (h : validateRamp start target rate = .ok v) :
    start = some v.start ∧ target = some v.target ∧ rate = some v.rate := by
  unfold validateRamp at h
  split at h
  · split_ifs at h
    obtain rfl := Except.ok.inj h
    exact ⟨rfl, rfl, rfl⟩
  · cases h

namespace RampReference

/-- Where the ramp is at `now`. -/
def position (r : RampReference) (now : ℕ) : ℚ :=
  toward r.state.target r.state.current (r.state.rate * seconds (now - r.state.lastAt))

theorem travel_nonneg (r : RampReference) (d : ℕ) : 0 ≤ r.state.rate * seconds d :=
  mul_nonneg r.positive.le (seconds_nonneg d)

theorem candidateAt_eq (r : RampReference) (now : ℕ) :
    r.candidateAt now = if now < r.state.lastAt then .error .invalidTime else .ok (r.position now) := by
  unfold candidateAt position
  rw [← signum_step _ _ (r.travel_nonneg _)]

theorem candidateAt_ok {r : RampReference} {now : ℕ} {current : ℚ} :
    r.candidateAt now = .ok current ↔ r.state.lastAt ≤ now ∧ current = r.position now := by
  rw [candidateAt_eq]
  split_ifs with h
  · simp only [false_iff]
    omega
  · rw [Except.ok.injEq]
    constructor
    · exact fun heq => ⟨not_lt.1 h, heq.symm⟩
    · exact fun heq => heq.2.symm

/-- The ramp as an evaluation at `now` leaves it. -/
def moved (r : RampReference) (now : ℕ) : RampReference :=
  ⟨{ r.state with current := r.position now, lastAt := now }, r.positive⟩

theorem valueAt_eq {r : RampReference} {now : ℕ} (h : r.state.lastAt ≤ now) :
    r.valueAt now = (.ok ⟨r.position now, r.state.unit, now⟩, r.moved now) := by
  unfold valueAt
  rw [candidateAt_ok.2 ⟨h, rfl⟩]
  rfl

theorem valueAt_ok {r r' : RampReference} {now : ℕ} {v : ReferenceValue} (h : r.valueAt now = (.ok v, r')) :
    r.state.lastAt ≤ now ∧ v = ⟨r.position now, r.state.unit, now⟩ ∧ r' = r.moved now := by
  have hnow : r.state.lastAt ≤ now := by
    by_contra hlt
    unfold valueAt at h
    rw [candidateAt_eq, if_pos (not_le.1 hlt)] at h
    cases h
  rw [valueAt_eq hnow] at h
  cases h
  exact ⟨hnow, rfl, rfl⟩

theorem valueAt_error {r r' : RampReference} {now : ℕ} {e : ReferenceError} (h : r.valueAt now = (.error e, r')) :
    r' = r := by
  unfold valueAt at h
  split at h
  · exact (Prod.mk.inj h).2.symm
  · cases h

theorem retune_ok {r r' : RampReference} {target rate : Engineering} {now : ℕ} (h : r.retune target rate now = (.ok (), r')) :
    r.state.lastAt ≤ now ∧ ∃ v, validateRamp (some r.state.current) target rate = .ok v ∧
      r'.state = ⟨r.position now, v.target, v.rate, r.state.unit, now⟩ := by
  unfold retune at h
  cases hv : validateRamp (some r.state.current) target rate with
  | error e =>
    rw [hv] at h
    cases h
  | ok v =>
    rw [hv] at h
    dsimp only at h
    cases hc : r.candidateAt now with
    | error e =>
      rw [hc] at h
      cases h
    | ok current =>
      rw [hc] at h
      obtain ⟨hnow, rfl⟩ := candidateAt_ok.1 hc
      cases h
      exact ⟨hnow, v, rfl, rfl⟩

theorem retune_error {r r' : RampReference} {target rate : Engineering} {now : ℕ} {e : ReferenceError}
    (h : r.retune target rate now = (.error e, r')) : r' = r := by
  unfold retune at h
  split at h
  · exact (Prod.mk.inj h).2.symm
  · split at h
    · exact (Prod.mk.inj h).2.symm
    · cases h

/-! ### One course -/

/-- `s` is where `r` would be, later on the same course. -/
structure Along (r s : RampReference) : Prop where
  target : s.state.target = r.state.target
  rate : s.state.rate = r.state.rate
  unit : s.state.unit = r.state.unit
  later : r.state.lastAt ≤ s.state.lastAt
  current : s.state.current = r.position s.state.lastAt

theorem position_self (r : RampReference) : r.position r.state.lastAt = r.state.current := by
  unfold position seconds
  rw [Nat.sub_self, Nat.cast_zero, zero_div, mul_zero, toward_zero]

theorem Along.refl (r : RampReference) : Along r r := ⟨rfl, rfl, rfl, le_rfl, r.position_self.symm⟩

/-- An evaluation on the way changes nothing of what comes later. -/
theorem Along.position {r s : RampReference} (h : Along r s) {now : ℕ} (hnow : s.state.lastAt ≤ now) :
    s.position now = r.position now := by
  have hsplit : now - r.state.lastAt = (s.state.lastAt - r.state.lastAt) + (now - s.state.lastAt) := by
    have := h.later
    omega
  calc s.position now
      = toward r.state.target (r.position s.state.lastAt) (r.state.rate * seconds (now - s.state.lastAt)) := by
        rw [RampReference.position, h.target, h.rate, h.current]
    _ = toward r.state.target r.state.current
          (r.state.rate * seconds (s.state.lastAt - r.state.lastAt) + r.state.rate * seconds (now - s.state.lastAt)) :=
        toward_toward (r.travel_nonneg _) (r.travel_nonneg _)
    _ = r.position now := by
        rw [RampReference.position, hsplit, seconds_add, mul_add]

theorem Along.moved {r s : RampReference} (h : Along r s) {now : ℕ} (hnow : s.state.lastAt ≤ now) :
    Along r (s.moved now) :=
  ⟨h.target, h.rate, h.unit, h.later.trans hnow, h.position hnow⟩

/-! ### Runs -/

inductive Call
  | valueAt (now : ℕ)
  | retune (target rate : Engineering) (now : ℕ)
  deriving DecidableEq

def Call.time : Call → ℕ
  | .valueAt now => now
  | .retune _ _ now => now

def Call.isRetune : Call → Bool
  | .valueAt _ => false
  | .retune .. => true

/-- One call, which is `none` when it is rejected. -/
def call (r : RampReference) : Call → Option RampReference
  | .valueAt now =>
    match r.valueAt now with
    | (.ok _, r) => some r
    | (.error _, _) => none
  | .retune target rate now =>
    match r.retune target rate now with
    | (.ok _, r) => some r
    | (.error _, _) => none

/-- A run of accepted calls. -/
def drive (r : RampReference) : List Call → Option RampReference
  | [] => some r
  | c :: cs => (r.call c).bind fun r => r.drive cs

theorem call_valueAt {r s : RampReference} {now : ℕ} (h : r.call (.valueAt now) = some s) :
    r.state.lastAt ≤ now ∧ s = r.moved now := by
  unfold call at h
  dsimp only at h
  rcases hv : r.valueAt now with ⟨e | v, r'⟩ <;> rw [hv] at h <;> cases h
  obtain ⟨hnow, -, hmoved⟩ := valueAt_ok hv
  exact ⟨hnow, hmoved⟩

theorem call_retune {r s : RampReference} {target rate : Engineering} {now : ℕ}
    (h : r.call (.retune target rate now) = some s) : r.retune target rate now = (.ok (), s) := by
  unfold call at h
  dsimp only at h
  rcases hv : r.retune target rate now with ⟨e | v, r'⟩ <;> rw [hv] at h <;> cases h
  rfl

/-- A retune from one course is the same retune at whatever point of it the ramp was evaluated last. -/
theorem Along.retune {r s : RampReference} (h : Along r s) {target rate : Engineering} {now : ℕ} (hnow : s.state.lastAt ≤ now) :
    (s.retune target rate now).1 = (r.retune target rate now).1 ∧
      ∀ s', s.retune target rate now = (.ok (), s') → r.retune target rate now = (.ok (), s') := by
  have hvalid : validateRamp (some s.state.current) target rate = .error .invalidConfiguration ∧
      validateRamp (some r.state.current) target rate = .error .invalidConfiguration ∨
      ∃ t p, ∃ hp : 0 < p, validateRamp (some s.state.current) target rate = .ok ⟨s.state.current, t, p, hp⟩ ∧
        validateRamp (some r.state.current) target rate = .ok ⟨r.state.current, t, p, hp⟩ := by
    unfold validateRamp
    cases target with
    | none => exact .inl ⟨rfl, rfl⟩
    | some t =>
      cases rate with
      | none => exact .inl ⟨rfl, rfl⟩
      | some p =>
        dsimp only
        split_ifs with hp
        · exact .inr ⟨t, p, hp, rfl, rfl⟩
        · exact .inl ⟨rfl, rfl⟩
  unfold RampReference.retune
  obtain ⟨hs, hr⟩ | ⟨t, p, hp, hs, hr⟩ := hvalid
  · rw [hs, hr]
    exact ⟨rfl, fun s' heq => by cases heq⟩
  · rw [hs, hr, candidateAt_ok.2 ⟨hnow, rfl⟩, candidateAt_ok.2 ⟨h.later.trans hnow, rfl⟩]
    dsimp only
    rw [h.position hnow, h.unit]
    exact ⟨rfl, fun s' heq => heq⟩

/-- Without its evaluations a run takes the same course. -/
theorem drive_along {calls : List Call} {r₀ r s : RampReference} (h : Along r₀ r) (hrun : r.drive calls = some s) :
    ∃ s₀, r₀.drive (calls.filter Call.isRetune) = some s₀ ∧ Along s₀ s := by
  induction calls generalizing r₀ r with
  | nil =>
    cases hrun
    exact ⟨r₀, rfl, h⟩
  | cons c cs ih =>
    obtain ⟨r', hcall, hrest⟩ := Option.bind_eq_some_iff.1 hrun
    cases c with
    | valueAt now =>
      obtain ⟨hnow, rfl⟩ := call_valueAt hcall
      exact ih (h.moved hnow) hrest
    | retune target rate now =>
      have hretune := call_retune hcall
      have hsame := (h.retune (retune_ok hretune).1).2 r' hretune
      obtain ⟨s₀, hdrive, halong⟩ := ih (.refl r') hrest
      refine ⟨s₀, ?_, halong⟩
      rw [List.filter_cons_of_pos rfl, drive, call, hsame]
      exact hdrive

/-- Two ramps along one course give the same value, and are the same ramp afterwards. -/
theorem Along.valueAt {r s s' : RampReference} (h : Along r s) (h' : Along r s') {now : ℕ} (hnow : s.state.lastAt ≤ now)
    (hnow' : s'.state.lastAt ≤ now) : s.valueAt now = s'.valueAt now := by
  have hposition : s.position now = s'.position now := (h.position hnow).trans (h'.position hnow').symm
  have hmoved : s.moved now = s'.moved now := by
    unfold RampReference.moved
    congr 1
    dsimp only
    rw [hposition, h.target, h'.target, h.rate, h'.rate, h.unit, h'.unit]
  rw [valueAt_eq hnow, valueAt_eq hnow', hposition, hmoved, h.unit, h'.unit]

/-- Calls in time order are accepted or not whatever evaluations stand among them. -/
theorem drive_isSome {calls : List Call} {r₀ r : RampReference} (h : Along r₀ r)
    (hordered : (r.state.lastAt :: calls.map Call.time).Pairwise (· ≤ ·)) :
    (r.drive calls).isSome = (r₀.drive (calls.filter Call.isRetune)).isSome := by
  induction calls generalizing r₀ r with
  | nil => rfl
  | cons c cs ih =>
    obtain ⟨hfirst, hordered⟩ := List.pairwise_cons.1 hordered
    have hnow : r.state.lastAt ≤ c.time := hfirst _ List.mem_cons_self
    cases c with
    | valueAt now =>
      change r.state.lastAt ≤ now at hnow
      have hcall : r.call (.valueAt now) = some (r.moved now) := by
        unfold call
        dsimp only
        rw [valueAt_eq hnow]
      rw [drive, hcall]
      exact ih (h.moved hnow) hordered
    | retune target rate now =>
      change r.state.lastAt ≤ now at hnow
      obtain ⟨hresult, hsame⟩ : _ ∧ ∀ s', r.retune target rate now = (.ok (), s') → _ := h.retune hnow
      rw [List.filter_cons_of_pos rfl, drive, drive, call, call]
      rcases hr : r.retune target rate now with ⟨e | u, r'⟩
      · rcases hr₀ : r₀.retune target rate now with ⟨e₀ | u₀, r₀'⟩
        · rfl
        · rw [hr, hr₀] at hresult
          cases hresult
      · rw [hsame r' hr]
        obtain ⟨-, v, -, hstate⟩ := retune_ok hr
        refine ih (.refl r') ?_
        rw [hstate]
        exact hordered

/-! ### Values on the way -/

theorem drive_valueAt {times : List ℕ} {r₀ r s : RampReference} (h : Along r₀ r)
    (hrun : r.drive (times.map .valueAt) = some s) : Along r₀ s := by
  induction times generalizing r with
  | nil =>
    cases hrun
    exact h
  | cons now rest ih =>
    obtain ⟨r', hcall, hrest⟩ := Option.bind_eq_some_iff.1 hrun
    obtain ⟨hnow, rfl⟩ := call_valueAt hcall
    exact ih (h.moved hnow) hrest

/-- The target is reached after the distance at the rate, not before, and not left again. -/
theorem position_eq_target_iff (r : RampReference) (now : ℕ) :
    r.position now = r.state.target ↔
      |r.state.target - r.state.current| / r.state.rate ≤ seconds (now - r.state.lastAt) := by
  rw [position, toward_eq_goal_iff (r.travel_nonneg _), div_le_iff₀ r.positive, mul_comm]

theorem position_mem (r : RampReference) (now : ℕ) :
    min r.state.current r.state.target ≤ r.position now ∧ r.position now ≤ max r.state.current r.state.target :=
  toward_mem _ _ (r.travel_nonneg _)

end RampReference

/-! ### Calls of the Runtime -/

namespace RuntimeReference

inductive Call
  | valueAt (now : ℕ)
  | retune (target rate : Engineering) (expectedRevision now : ℕ)
  | reconfigure (config : ReferenceConfig) (expectedRevision : ℕ)

/-- How much a call advances the revision. -/
def Call.changes : Call → ℕ
  | .valueAt _ => 0
  | .retune .. => 1
  | .reconfigure .. => 1

def call (r : RuntimeReference) : Call → Except ReferenceError Unit × RuntimeReference
  | .valueAt now => ((r.valueAt now).1.map fun _ => (), (r.valueAt now).2)
  | .retune target rate expectedRevision now =>
    ((r.retune target rate expectedRevision now).1.map fun _ => (), (r.retune target rate expectedRevision now).2)
  | .reconfigure config expectedRevision =>
    ((r.reconfigure config expectedRevision).1.map fun _ => (), (r.reconfigure config expectedRevision).2)

theorem valueAt_follows (r : RuntimeReference) (now : ℕ) :
    (∀ e, (r.valueAt now).1 = .error e → (r.valueAt now).2 = r) ∧ (r.valueAt now).2.revision = r.revision := by
  cases r with
  | fixed id reference revision =>
    refine ⟨fun e h => ?_, rfl⟩
    dsimp only [valueAt] at h ⊢
    unfold FixedReference.valueAt at h ⊢
    split_ifs at h ⊢
    rfl
  | ramp id reference revision =>
    refine ⟨fun e h => ?_, rfl⟩
    dsimp only [valueAt] at h ⊢
    exact congrArg (ramp id · revision) (RampReference.valueAt_error (Prod.ext h rfl))

theorem retune_follows (r : RuntimeReference) (target rate : Engineering) (expectedRevision now : ℕ) :
    (∀ e, (r.retune target rate expectedRevision now).1 = .error e → (r.retune target rate expectedRevision now).2 = r) ∧
      ∀ v, (r.retune target rate expectedRevision now).1 = .ok v →
        (r.retune target rate expectedRevision now).2.revision = r.revision + 1 := by
  cases r with
  | fixed id reference revision => exact ⟨fun e _ => rfl, fun v h => by cases h⟩
  | ramp id reference revision =>
    dsimp only [retune]
    split_ifs with hrevision
    · exact ⟨fun e _ => rfl, fun v h => by cases h⟩
    cases hnext : checkedAdd revision 1 with
    | none => exact ⟨fun e _ => rfl, fun v h => by cases h⟩
    | some next =>
      obtain ⟨rfl, -⟩ := checkedAdd_eq_some.1 hnext
      rcases hr : reference.retune target rate now with ⟨e | u, kept⟩
      · rw [RampReference.retune_error hr]
        exact ⟨fun e _ => rfl, fun v h => by cases h⟩
      · exact ⟨fun e h => (by cases h), fun v _ => rfl⟩

theorem reconfigure_follows (r : RuntimeReference) (config : ReferenceConfig) (expectedRevision : ℕ) :
    (∀ e, (r.reconfigure config expectedRevision).1 = .error e → (r.reconfigure config expectedRevision).2 = r) ∧
      ∀ v, (r.reconfigure config expectedRevision).1 = .ok v →
        (r.reconfigure config expectedRevision).2.revision = r.revision + 1 := by
  unfold reconfigure
  split_ifs with hconflict
  · exact ⟨fun e _ => rfl, fun v h => by cases h⟩
  have hrevision : r.revision = expectedRevision := by
    by_contra hne
    exact hconflict (.inr hne)
  cases hnext : checkedAdd expectedRevision 1 with
  | none => exact ⟨fun e _ => rfl, fun v h => by cases h⟩
  | some next =>
    obtain ⟨rfl, -⟩ := checkedAdd_eq_some.1 hnext
    cases new config with
    | error e => exact ⟨fun e _ => rfl, fun v h => by cases h⟩
    | ok candidate =>
      refine ⟨fun e h => (by cases h), fun v _ => ?_⟩
      rw [hrevision]
      cases candidate <;> rfl

/-- A rejected call leaves the Reference as it was; an accepted change of configuration advances the revision by one. -/
theorem call_follows (r : RuntimeReference) (c : Call) :
    (∀ e, (r.call c).1 = .error e → (r.call c).2 = r) ∧
      ((r.call c).1 = .ok () → (r.call c).2.revision = r.revision + c.changes) := by
  have hmap : ∀ {α : Type} {x : Except ReferenceError α}, (∀ e, x.map (fun _ => ()) = .error e → x = .error e) ∧
      (x.map (fun _ => ()) = .ok () → ∃ a, x = .ok a) := fun {α x} => by
    cases x with
    | error e => exact ⟨fun e' h => congrArg Except.error (Except.error.inj h), fun h => by cases h⟩
    | ok a => exact ⟨fun e' h => (by cases h), fun _ => ⟨a, rfl⟩⟩
  cases c with
  | valueAt now =>
    obtain ⟨hkeeps, hrevision⟩ := r.valueAt_follows now
    exact ⟨fun e h => hkeeps e (hmap.1 e h), fun _ => hrevision⟩
  | retune target rate expectedRevision now =>
    obtain ⟨hkeeps, hrevision⟩ := r.retune_follows target rate expectedRevision now
    refine ⟨fun e h => hkeeps e (hmap.1 e h), fun h => ?_⟩
    obtain ⟨v, hv⟩ := hmap.2 h
    exact hrevision v hv
  | reconfigure config expectedRevision =>
    obtain ⟨hkeeps, hrevision⟩ := r.reconfigure_follows config expectedRevision
    refine ⟨fun e h => hkeeps e (hmap.1 e h), fun h => ?_⟩
    obtain ⟨v, hv⟩ := hmap.2 h
    exact hrevision v hv

end RuntimeReference

/-- The course of a ramp does not depend on when it is evaluated: two runs with the same retunes are accepted
alike and give the same values; between retunes every value lies on the way to the target, which is reached
after the distance at the rate; a retune starts where the ramp is; and what is rejected changes nothing. -/
theorem ramp_independent_of_evaluation (r : RampReference) :
    (∀ calls calls' : List RampReference.Call,
      calls.filter RampReference.Call.isRetune = calls'.filter RampReference.Call.isRetune →
      ((r.state.lastAt :: calls.map RampReference.Call.time).Pairwise (· ≤ ·) →
        (r.state.lastAt :: calls'.map RampReference.Call.time).Pairwise (· ≤ ·) →
        (r.drive calls).isSome = (r.drive calls').isSome) ∧
      ∀ s s', r.drive calls = some s → r.drive calls' = some s' →
        ∀ now, s.state.lastAt ≤ now → s'.state.lastAt ≤ now → s.valueAt now = s'.valueAt now) ∧
    (∀ (times : List ℕ) s, r.drive (times.map .valueAt) = some s → ∀ now v, (s.valueAt now).1 = .ok v →
      (min r.state.current r.state.target ≤ v.value ∧ v.value ≤ max r.state.current r.state.target) ∧
      (min s.state.current r.state.target ≤ v.value ∧ v.value ≤ max s.state.current r.state.target) ∧
      (v.value = r.state.target ↔
        |r.state.target - r.state.current| / r.state.rate ≤ seconds (now - r.state.lastAt))) ∧
    (∀ target rate now s, r.retune target rate now = (.ok (), s) →
      ∃ v, (r.valueAt now).1 = .ok v ∧ (s.valueAt now).1 = .ok v ∧ s.state.current = v.value) ∧
    ∀ (q : RuntimeReference) (c : RuntimeReference.Call), (∀ e, (q.call c).1 = .error e → (q.call c).2 = q) ∧
      ((q.call c).1 = .ok () → (q.call c).2.revision = q.revision + c.changes) := by
  refine ⟨fun calls calls' hretunes => ⟨fun hordered hordered' => ?_, fun s s' hrun hrun' now hnow hnow' => ?_⟩,
    fun times s hrun now v hv => ?_, fun target rate now s hretune => ?_, RuntimeReference.call_follows⟩
  · rw [RampReference.drive_isSome (.refl r) hordered, RampReference.drive_isSome (.refl r) hordered', hretunes]
  · obtain ⟨s₀, hdrive, halong⟩ := RampReference.drive_along (.refl r) hrun
    obtain ⟨s₀', hdrive', halong'⟩ := RampReference.drive_along (.refl r) hrun'
    rw [hretunes, hdrive'] at hdrive
    obtain rfl := Option.some.inj hdrive
    exact halong.valueAt halong' hnow hnow'
  · have halong := RampReference.drive_valueAt (.refl r) hrun
    obtain ⟨hnow, rfl, -⟩ := RampReference.valueAt_ok (Prod.ext hv rfl)
    have hposition := halong.position hnow
    have hmem := s.position_mem now
    rw [halong.target] at hmem
    refine ⟨?_, hmem, ?_⟩
    · dsimp only
      rw [hposition]
      exact r.position_mem now
    · dsimp only
      rw [hposition]
      exact r.position_eq_target_iff now
  · obtain ⟨hnow, w, -, hstate⟩ := RampReference.retune_ok hretune
    refine ⟨⟨r.position now, r.state.unit, now⟩, ?_, ?_, ?_⟩
    · rw [RampReference.valueAt_eq hnow]
    · have hlast : s.state.lastAt = now := by rw [hstate]
      have hposition : s.position now = r.position now := by
        rw [← hlast, s.position_self, hlast, hstate]
      rw [RampReference.valueAt_eq hlast.le, hposition, hstate]
    · rw [hstate]

/-- From 20 to 30 degrees at two a second, evaluated on the way or not. -/
theorem ramp_independent_of_evaluation_heating :
    let r : RampReference := ⟨⟨20, 30, 2, .celsius, 0⟩, by decide⟩
    ∃ s, r.drive [.valueAt (fromSecs 1), .valueAt (fromSecs 2)] = some s ∧
      s.valueAt (fromSecs 4) = r.valueAt (fromSecs 4) ∧
      (r.valueAt (fromSecs 4)).1.toOption.map ReferenceValue.value = some 28 := by
  intro r
  refine ⟨_, rfl, ((ramp_independent_of_evaluation r).1 [.valueAt (fromSecs 1), .valueAt (fromSecs 2)] [] rfl).2 _ r rfl rfl _
    (by decide) (by decide), by decide +kernel⟩

end LabRuntime
