import LabRuntime.Model
import Mathlib.Data.Finset.Card
import Mathlib.Tactic.Ring

/-! A periodic slot of the schedule: due from `nextDue` on, and moved on by whole periods when it is
taken, past what was missed. -/

namespace LabRuntime.Host

structure Periodic where
  nextDue : ℕ := 0
  period : ℕ
  deriving DecidableEq, Repr

namespace Periodic

def new (period : ℕ) : Periodic := { period := period }

def due (p : Periodic) (now : ℕ) : Bool := decide (p.nextDue ≤ now)

/-- The slots missed, or `none` where the slot is not due. -/
def take (p : Periodic) (now : ℕ) : Except Error (Option ℕ) × Periodic :=
  if p.due now = false then (.ok none, p)
  else
    let missed := (now - p.nextDue) / p.period
    if u64Max < missed then (.error (.invalidConfiguration "scheduler count exhausted"), p)
    else
      match checkedAdd missed 1 with
      | none => (.error (.invalidConfiguration "scheduler count exhausted"), p)
      | some slots =>
        let nanos := p.period * slots
        if 2 ^ 128 ≤ nanos ∨ u64Max < nanos / 10 ^ 9 then (.error (.invalidConfiguration "scheduler time exhausted"), p)
        else
          match durationAdd p.nextDue nanos with
          | none => (.error (.invalidConfiguration "scheduler time exhausted"), p)
          | some nextDue => (.ok (some missed), { p with nextDue := nextDue })

/-- The slots a result accounts for. -/
def slots : Except Error (Option ℕ) → ℕ
  | .ok (some missed) => missed + 1
  | _ => 0

/-- The slot after a sequence of takes, and the slots accounted for. -/
def takes (p : Periodic) : List ℕ → ℕ × Periodic
  | [] => (0, p)
  | now :: nows =>
    let rest := takes (p.take now).2 nows
    (slots (p.take now).1 + rest.1, rest.2)

/-- The times up to `now` at which the slot falls due. -/
def dueTimes (p : Periodic) (now : ℕ) : Finset ℕ :=
  (Finset.range (now + 1)).filter fun t => p.nextDue ≤ t ∧ p.period ∣ t - p.nextDue

variable {p : Periodic} {now : ℕ}

/-- What a take does: nothing while the slot is not due, nothing with an error, or a step past `now`. -/
theorem take_cases (p : Periodic) (now : ℕ) :
    (now < p.nextDue ∧ p.take now = (.ok none, p)) ∨ (∃ error, p.take now = (.error error, p)) ∨
      (p.nextDue ≤ now ∧ p.take now = (.ok (some ((now - p.nextDue) / p.period)),
        { p with nextDue := p.nextDue + p.period * ((now - p.nextDue) / p.period + 1) })) := by
  unfold take
  dsimp only
  split_ifs with hdue hcount
  · exact .inl ⟨by simpa [due] using hdue, rfl⟩
  · exact .inr (.inl ⟨_, rfl⟩)
  have hle : p.nextDue ≤ now := by simpa [due] using hdue
  split
  · exact .inr (.inl ⟨_, rfl⟩)
  next slots hslots =>
    obtain ⟨rfl, -⟩ := checkedAdd_eq_some.1 hslots
    split_ifs with htime
    · exact .inr (.inl ⟨_, rfl⟩)
    split
    · exact .inr (.inl ⟨_, rfl⟩)
    next nextDue hadd =>
      obtain ⟨rfl, -⟩ := durationAdd_eq_some.1 hadd
      exact .inr (.inr ⟨hle, rfl⟩)

/-- An accepted take leaves the slot due in the future. -/
theorem take_future (hpos : 0 < p.period) {result : Option ℕ} (h : (p.take now).1 = .ok result) :
    now < (p.take now).2.nextDue := by
  rcases take_cases p now with ⟨hlt, heq⟩ | ⟨error, heq⟩ | ⟨hle, heq⟩
  · rw [heq]
    exact hlt
  · rw [heq] at h
    cases h
  · rw [heq]
    have hdiv := Nat.lt_mul_div_succ (now - p.nextDue) hpos
    show now < p.nextDue + p.period * ((now - p.nextDue) / p.period + 1)
    omega

theorem take_error {error : Error} (h : (p.take now).1 = .error error) : (p.take now).2 = p := by
  rcases take_cases p now with ⟨-, heq⟩ | ⟨_, heq⟩ | ⟨-, heq⟩ <;> rw [heq] at h ⊢
  cases h

/-- The due times up to `now` are the first `k`, when the next is later and the last is not. -/
theorem card_dueTimes (hpos : 0 < p.period) {k : ℕ} (hnext : now < p.nextDue + p.period * k)
    (hlast : k = 0 ∨ p.nextDue + p.period * (k - 1) ≤ now) : (p.dueTimes now).card = k := by
  have himage : p.dueTimes now = (Finset.range k).image fun i => p.nextDue + p.period * i := by
    ext t
    simp only [dueTimes, Finset.mem_filter, Finset.mem_range, Finset.mem_image]
    refine ⟨fun ⟨ht, hle, hdvd⟩ => ?_, fun ⟨i, hi, heq⟩ => ?_⟩
    · obtain ⟨i, hi⟩ := hdvd
      refine ⟨i, ?_, by omega⟩
      by_contra hk
      have hmul := Nat.mul_le_mul_left p.period (not_lt.1 hk)
      omega
    · have hmul := Nat.mul_le_mul_left p.period (Nat.le_sub_one_of_lt hi)
      have hnow : p.nextDue + p.period * (k - 1) ≤ now := hlast.resolve_left (by omega)
      refine ⟨by omega, by omega, ⟨i, by omega⟩⟩
  rw [himage, Finset.card_image_of_injective, Finset.card_range]
  intro i j hij
  exact Nat.eq_of_mul_eq_mul_left hpos (Nat.add_left_cancel hij)

/-- After some takes: `k` slots are accounted for, the slot is `k` periods on, and the last of them was due. -/
structure Taken (p : Periodic) (last : ℕ) (k : ℕ) (p' : Periodic) : Prop where
  period : p'.period = p.period
  nextDue : p'.nextDue = p.nextDue + p.period * k
  due : k = 0 ∨ p.nextDue + p.period * (k - 1) ≤ last

theorem Taken.take {p' : Periodic} {last k : ℕ} (h : Taken p last k p') (hle : last ≤ now) :
    Taken p now (k + slots (p'.take now).1) (p'.take now).2 := by
  have hkeep : Taken p now k p' := ⟨h.period, h.nextDue, h.due.imp id fun hdue => hdue.trans hle⟩
  rcases take_cases p' now with ⟨-, heq⟩ | ⟨error, heq⟩ | ⟨hdue, heq⟩ <;> rw [heq]
  · exact hkeep
  · exact hkeep
  · have hperiod := h.period
    have hnext := h.nextDue
    refine ⟨hperiod, ?_, .inr ?_⟩
    · show p'.nextDue + p'.period * ((now - p'.nextDue) / p'.period + 1) = _
      rw [hnext, hperiod, slots]
      ring
    · have hdiv := Nat.div_mul_le_self (now - p'.nextDue) p'.period
      have hslots : k + slots (.ok (some ((now - p'.nextDue) / p'.period))) - 1 =
          k + (now - p'.nextDue) / p'.period := rfl
      have hmul : p.period * (k + (now - p'.nextDue) / p'.period) =
          p.period * k + (now - p'.nextDue) / p'.period * p'.period := by rw [hperiod]; ring
      rw [hslots, hmul]
      omega

theorem taken_takes {p' : Periodic} {last k : ℕ} (h : Taken p last k p') {nows : List ℕ}
    (hsorted : (last :: nows).Pairwise (· ≤ ·)) :
    Taken p (nows.getLastD last) (k + (p'.takes nows).1) (p'.takes nows).2 := by
  induction nows generalizing last k p' with
  | nil => exact h
  | cons now nows ih =>
    rw [List.pairwise_cons] at hsorted
    have hstep := h.take (hsorted.1 now List.mem_cons_self)
    have hrest := ih hstep hsorted.2
    rw [takes, ← add_assoc, List.getLastD_cons]
    exact hrest

theorem takes_snoc (p : Periodic) (nows : List ℕ) (now : ℕ) :
    p.takes (nows ++ [now]) =
      ((p.takes nows).1 + slots ((p.takes nows).2.take now).1, ((p.takes nows).2.take now).2) := by
  induction nows generalizing p with
  | nil => simp [takes]
  | cons n nows ih => simp only [List.cons_append, takes, ih, add_assoc]

/-- The slot keeps its phase: after takes at nondecreasing times, of which the last was accepted, the
slot is due later, whole periods from where it started, and every due time so far is accounted for once. -/
theorem takes_keep_phase (hpos : 0 < p.period) {nows : List ℕ} (hsorted : (nows ++ [now]).Pairwise (· ≤ ·))
    {result : Option ℕ} (hlast : ((p.takes nows).2.take now).1 = .ok result) :
    now < (p.takes (nows ++ [now])).2.nextDue ∧ p.period ∣ (p.takes (nows ++ [now])).2.nextDue - p.nextDue ∧
      (p.takes (nows ++ [now])).1 = (p.dueTimes now).card := by
  have htaken := taken_takes (⟨rfl, rfl, .inl rfl⟩ : Taken p 0 0 p)
    (List.pairwise_cons.2 ⟨fun _ _ => Nat.zero_le _, hsorted⟩)
  rw [zero_add, List.getLastD_concat] at htaken
  have hfuture : now < (p.takes (nows ++ [now])).2.nextDue := by
    rw [takes_snoc]
    refine take_future ?_ hlast
    have hbefore := taken_takes (⟨rfl, rfl, .inl rfl⟩ : Taken p 0 0 p)
      (List.pairwise_cons.2 ⟨fun _ _ => Nat.zero_le _, (List.pairwise_append.1 hsorted).1⟩)
    rw [hbefore.period]
    exact hpos
  refine ⟨hfuture, ⟨_, by rw [htaken.nextDue, Nat.add_sub_cancel_left]⟩, ?_⟩
  rw [htaken.nextDue] at hfuture
  exact (card_dueTimes hpos hfuture htaken.due).symm

end Periodic
end LabRuntime.Host
