import LabRuntime.Recording
import Mathlib.Data.List.Range

/-! What the outbox reports as lost is what it did not retain. Every attempt takes the next number of
one counter, so between two arms the retained facts are a run of consecutive numbers, the first lost
one ends it, and no number returns under a later arm. -/

namespace LabRuntime.FactOutbox

/-- A fact that waits for its number. -/
structure Draft where
  bytes : ℕ
  create : ℕ → RecordingFact
  numbered : ∀ n, (create n).sequence = n

/-- The operations inside one armed period. -/
inductive PeriodOp
  | take
  | loseCorrelation
  | push (draft : Draft)

inductive Op
  | enable
  | disable
  | within (op : PeriodOp)

/-- The outbox and what its owner could have noted down beside it. -/
structure Account where
  outbox : FactOutbox
  /-- The credits of the queued facts. -/
  credits : List ℕ
  /-- Every number that was given to a fact or to its loss. -/
  issued : List ℕ
  /-- What the takes returned since the last enable. -/
  returned : List RecordingFact
  /-- Whether each attempt since the last enable was retained. -/
  outcomes : List Bool

namespace Account

def initial : Account := { outbox := .empty, credits := [], issued := [], returned := [], outcomes := [] }

/-- A fact push or a lost correlation, noted down by what it did to the queue and to the counter. -/
def attempt (a : Account) (outbox : FactOutbox) (bytes : ℕ) : Account :=
  let retained := decide (a.outbox.facts.length < outbox.facts.length)
  { a with
    outbox := outbox
    credits := if retained then a.credits ++ [bytes] else a.credits
    issued := if a.outbox.nextSequence < outbox.nextSequence then a.issued ++ [outbox.nextSequence] else a.issued
    outcomes := a.outcomes ++ [retained] }

def step (a : Account) : Op → Account
  | .enable => { a with outbox := a.outbox.enable, returned := [], outcomes := [] }
  | .disable => { a with outbox := a.outbox.disable, credits := [] }
  | .within .take => { a with outbox := a.outbox.take.2, credits := [], returned := a.returned ++ a.outbox.take.1 }
  | .within .loseCorrelation => a.attempt a.outbox.loseCorrelation 0
  | .within (.push draft) => a.attempt (a.outbox.push draft.bytes draft.create) draft.bytes

def run (a : Account) (ops : List Op) : Account := ops.foldl step a

/-- The queue inside its bounds; what is not armed holds nothing. -/
structure Held (a : Account) : Prop where
  count : a.outbox.facts.length ≤ maxRecordingFacts
  credits : a.credits.length = a.outbox.facts.length ∧ a.credits.sum = a.outbox.bytes
  bytes : a.outbox.bytes ≤ maxRecordingFactBytes
  idle : a.outbox.enabled = false → a.outbox.facts = []
  issued : a.issued.Pairwise (· < ·) ∧ ∀ n ∈ a.issued, n ≤ a.outbox.nextSequence
  next : a.outbox.nextSequence ≤ u64Max
  counted : a.outbox.suppressedFacts ≤ a.outbox.nextSequence

/-- What became of a period that was armed at `start`: after `fresh` retained facts, `lost` further
attempts. -/
structure Exact (start a : Account) (fresh : List RecordingFact) (lost : ℕ) : Prop where
  stream : a.returned ++ a.outbox.facts = start.outbox.facts ++ fresh
  numbered : fresh.map RecordingFact.sequence = List.range' (start.outbox.nextSequence + 1) fresh.length
  outcomes : a.outcomes = List.replicate fresh.length true ++ List.replicate lost false
  overflowed : a.outbox.overflowed = decide (0 < lost)
  firstLost : a.outbox.firstLostSequence =
    if 0 < lost ∧ start.outbox.nextSequence + fresh.length < u64Max then some (start.outbox.nextSequence + fresh.length + 1)
    else none
  suppressed : a.outbox.suppressed =
    if start.outbox.nextSequence + fresh.length + lost ≤ u64Max then some lost else none
  next : a.outbox.nextSequence = min (start.outbox.nextSequence + fresh.length + lost) u64Max
  issued : a.issued = start.issued ++
    List.range' (start.outbox.nextSequence + 1) (a.outbox.nextSequence - start.outbox.nextSequence)
  enabled : a.outbox.enabled = true

end Account

/-! ### One attempt -/

/-- A loss takes a number where one is left. -/
theorem loseCorrelation_lt {o : FactOutbox} (henabled : o.enabled = true) (hnext : o.suppressedFacts ≤ o.nextSequence)
    (hlt : o.nextSequence < u64Max) : o.loseCorrelation =
      { o with
        nextSequence := o.nextSequence + 1
        overflowed := true
        firstLostSequence := some (o.firstLostSequence.getD (o.nextSequence + 1))
        suppressedFacts := o.suppressedFacts + 1 } := by
  have hadd : checkedAdd o.nextSequence 1 = some (o.nextSequence + 1) := checkedAdd_eq_some.2 ⟨rfl, hlt⟩
  have hcount : checkedAdd o.suppressedFacts 1 = some (o.suppressedFacts + 1) :=
    checkedAdd_eq_some.2 ⟨rfl, by omega⟩
  rw [loseCorrelation, if_pos henabled, hadd]
  simp only [suppress, hcount]

theorem loseCorrelation_exhausted {o : FactOutbox} (henabled : o.enabled = true) (hlt : o.nextSequence = u64Max) :
    o.loseCorrelation = { o with overflowed := true, suppressedCountUnknown := true } := by
  have hadd : checkedAdd o.nextSequence 1 = none := checkedAdd_eq_none.2 (by omega)
  rw [loseCorrelation, if_pos henabled, hadd]

/-- A loss leaves what is queued. -/
theorem loseCorrelation_held (o : FactOutbox) : o.loseCorrelation.facts = o.facts ∧ o.loseCorrelation.bytes = o.bytes := by
  unfold loseCorrelation
  split_ifs
  · cases checkedAdd o.nextSequence 1 with
    | none => exact ⟨rfl, rfl⟩
    | some sequence =>
      refine ⟨suppress_facts _ _, ?_⟩
      unfold suppress
      dsimp only
      split <;> rfl
  · exact ⟨rfl, rfl⟩

/-- A push is refused as a loss, or it is retained under the next number. -/
theorem push_cases {o : FactOutbox} (henabled : o.enabled = true) (draft : Draft) :
    o.push draft.bytes draft.create = o.loseCorrelation ∨
    o.overflowed = false ∧ o.nextSequence < u64Max ∧ o.facts.length < maxRecordingFacts ∧
      o.bytes + draft.bytes ≤ maxRecordingFactBytes ∧
      o.push draft.bytes draft.create =
        { o with
          nextSequence := o.nextSequence + 1, bytes := o.bytes + draft.bytes
          facts := o.facts ++ [draft.create (o.nextSequence + 1)] } := by
  unfold push loseCorrelation
  rw [if_pos henabled, if_pos henabled]
  cases hadd : checkedAdd o.nextSequence 1 with
  | none => exact .inl rfl
  | some sequence =>
    obtain ⟨rfl, hlt⟩ := checkedAdd_eq_some.1 hadd
    dsimp only
    by_cases hover : o.overflowed = true
    · left
      rw [if_pos hover, ← hover]
    · rw [if_neg hover]
      cases hbytes : checkedAdd o.bytes draft.bytes with
      | none => exact .inl rfl
      | some nextBytes =>
        obtain ⟨rfl, -⟩ := checkedAdd_eq_some.1 hbytes
        dsimp only
        by_cases hfull : o.facts.length ≥ maxRecordingFacts ∨ o.bytes + draft.bytes > maxRecordingFactBytes
        · left
          rw [if_pos hfull]
        · right
          rw [if_neg hfull]
          exact ⟨Bool.eq_false_of_not_eq_true hover, by omega, by omega, by omega, rfl⟩

/-- What is not armed takes nothing. -/
theorem push_disabled {o : FactOutbox} (h : o.enabled = false) (bytes : ℕ) (create : ℕ → RecordingFact) :
    o.push bytes create = o := by
  rw [push, if_neg (by simp [h])]

theorem loseCorrelation_disabled {o : FactOutbox} (h : o.enabled = false) : o.loseCorrelation = o := by
  rw [loseCorrelation, if_neg (by simp [h])]

namespace Account

/-! ### The bounds -/

/-- An attempt that retained nothing. -/
theorem attempt_refused {a : Account} {outbox : FactOutbox} (h : outbox.facts = a.outbox.facts) (bytes : ℕ) :
    a.attempt outbox bytes =
      { a with
        outbox := outbox
        issued := if a.outbox.nextSequence < outbox.nextSequence then a.issued ++ [outbox.nextSequence] else a.issued
        outcomes := a.outcomes ++ [false] } := by
  simp [attempt, h]

/-- An attempt that retained one fact under the next number. -/
theorem attempt_retained {a : Account} {outbox : FactOutbox} {fact : RecordingFact}
    (h : outbox.facts = a.outbox.facts ++ [fact]) (hnext : outbox.nextSequence = a.outbox.nextSequence + 1) (bytes : ℕ) :
    a.attempt outbox bytes =
      { a with
        outbox := outbox
        credits := a.credits ++ [bytes]
        issued := a.issued ++ [a.outbox.nextSequence + 1]
        outcomes := a.outcomes ++ [true] } := by
  simp [attempt, h, hnext]

theorem pairwise_snoc {ns : List ℕ} {n : ℕ} (h : ns.Pairwise (· < ·) ∧ ∀ m ∈ ns, m ≤ n) :
    (ns ++ [n + 1]).Pairwise (· < ·) ∧ ∀ m ∈ ns ++ [n + 1], m ≤ n + 1 := by
  obtain ⟨hpairwise, hle⟩ := h
  constructor
  · rw [List.pairwise_append]
    refine ⟨hpairwise, List.pairwise_singleton .., fun m hm k hk => ?_⟩
    have hm := hle m hm
    obtain rfl := List.mem_singleton.1 hk
    omega
  · intro m hm
    rcases List.mem_append.1 hm with hm | hm
    · exact (hle m hm).trans (Nat.le_succ n)
    · exact (List.mem_singleton.1 hm).le

theorem Held.lose {a : Account} (h : a.Held) (bytes : ℕ) : (a.attempt a.outbox.loseCorrelation bytes).Held := by
  cases henabled : a.outbox.enabled with
  | false =>
    rw [loseCorrelation_disabled henabled, attempt_refused (by rfl), if_neg (lt_irrefl _)]
    exact { h with }
  | true =>
    rcases Nat.lt_or_ge a.outbox.nextSequence u64Max with hlt | hge
    · rw [loseCorrelation_lt henabled h.counted hlt, attempt_refused (by rfl), if_pos (Nat.lt_succ_self _)]
      exact
        { count := h.count, credits := h.credits, bytes := h.bytes, next := hlt, counted := Nat.succ_le_succ h.counted
          idle := fun hidle => absurd (henabled.symm.trans hidle) (by decide), issued := pairwise_snoc h.issued }
    · rw [loseCorrelation_exhausted henabled (Nat.le_antisymm h.next hge), attempt_refused (by rfl), if_neg (lt_irrefl _)]
      exact { h with }

theorem Held.push {a : Account} (h : a.Held) (draft : Draft) :
    (a.attempt (a.outbox.push draft.bytes draft.create) draft.bytes).Held := by
  cases henabled : a.outbox.enabled with
  | false =>
    rw [push_disabled henabled, attempt_refused (by rfl), if_neg (lt_irrefl _)]
    exact { h with }
  | true =>
    rcases push_cases henabled draft with hlost | ⟨-, hlt, hcount, hbytes, hpush⟩
    · rw [hlost]
      exact h.lose draft.bytes
    · rw [hpush, attempt_retained (by rfl) (by rfl)]
      exact
        { count := by simpa using hcount, bytes := hbytes, next := hlt, counted := h.counted.trans (Nat.le_succ _)
          credits := ⟨by simp [h.credits.1], by simp [h.credits.2]⟩
          idle := fun hidle => absurd (henabled.symm.trans hidle) (by decide), issued := pairwise_snoc h.issued }

theorem Held.initial : initial.Held where
  count := Nat.zero_le _
  credits := ⟨rfl, rfl⟩
  bytes := Nat.zero_le _
  idle := fun _ => rfl
  issued := ⟨.nil, nofun⟩
  next := Nat.zero_le _
  counted := le_rfl

theorem Held.step {a : Account} (h : a.Held) (op : Op) : (a.step op).Held := by
  cases op with
  | enable => exact { h with idle := nofun, counted := Nat.zero_le _ }
  | disable =>
    exact { h with count := Nat.zero_le _, credits := ⟨rfl, rfl⟩, bytes := Nat.zero_le _, idle := fun _ => rfl }
  | within op =>
    cases op with
    | take => exact { h with count := Nat.zero_le _, credits := ⟨rfl, rfl⟩, bytes := Nat.zero_le _, idle := fun _ => rfl }
    | loseCorrelation => exact h.lose 0
    | push draft => exact h.push draft

theorem Held.run {a : Account} (h : a.Held) (ops : List Op) : (a.run ops).Held := by
  induction ops generalizing a with
  | nil => exact h
  | cons op ops ih => exact ih (h.step op)

/-! ### One period -/

theorem suppressed_eq_some {o : FactOutbox} {n : ℕ} :
    o.suppressed = some n ↔ o.suppressedCountUnknown = false ∧ o.suppressedFacts = n := by
  unfold suppressed
  cases o.suppressedCountUnknown <;> simp

theorem range'_snoc {s n : ℕ} (h : s ≤ n) : List.range' (s + 1) (n + 1 - s) = List.range' (s + 1) (n - s) ++ [n + 1] := by
  have hlen : n + 1 - s = n - s + 1 := by omega
  have hlast : s + 1 + 1 * (n - s) = n + 1 := by omega
  rw [hlen, List.range'_concat, hlast]

variable {start a : Account} {fresh : List RecordingFact} {lost : ℕ}

/-- Arming begins a period with nothing retained and nothing lost. -/
theorem Exact.of_enable (h : a.Held) : Exact (a.step .enable) (a.step .enable) [] 0 where
  stream := (List.append_nil _).symm
  numbered := rfl
  outcomes := rfl
  overflowed := rfl
  firstLost := rfl
  suppressed := (if_pos h.next).symm
  next := (Nat.min_eq_left h.next).symm
  issued := by simp
  enabled := rfl

theorem Exact.lose (ha : a.Held) (h : Exact start a fresh lost) (bytes : ℕ) :
    Exact start (a.attempt a.outbox.loseCorrelation bytes) fresh (lost + 1) := by
  have hnext := h.next
  have houtcomes : a.outcomes ++ [false] = List.replicate fresh.length true ++ List.replicate (lost + 1) false := by
    rw [h.outcomes, List.replicate_succ', List.append_assoc]
  rcases Nat.lt_or_ge a.outbox.nextSequence u64Max with hlt | hge
  · -- a number is left, and every attempt so far has taken one
    have hexact : a.outbox.nextSequence = start.outbox.nextSequence + fresh.length + lost := by omega
    obtain ⟨hknown, hcount⟩ := suppressed_eq_some.1 (h.suppressed.trans (if_pos (by omega)))
    have hfirst : a.outbox.firstLostSequence.getD (a.outbox.nextSequence + 1) =
        start.outbox.nextSequence + fresh.length + 1 := by
      rw [h.firstLost]
      by_cases hlost : 0 < lost
      · rw [if_pos ⟨hlost, by omega⟩, Option.getD_some]
      · rw [if_neg fun hc => hlost hc.1, Option.getD_none]
        omega
    rw [loseCorrelation_lt h.enabled ha.counted hlt, attempt_refused (by rfl), if_pos (Nat.lt_succ_self _)]
    exact
      { stream := h.stream, numbered := h.numbered, outcomes := houtcomes, overflowed := rfl, enabled := h.enabled
        firstLost := by
          rw [if_pos ⟨Nat.succ_pos lost, by omega⟩, hfirst]
        suppressed := by
          rw [if_pos (by omega), suppressed_eq_some]
          exact ⟨hknown, congrArg (· + 1) hcount⟩
        next := by
          show a.outbox.nextSequence + 1 = _
          omega
        issued := by
          show a.issued ++ [a.outbox.nextSequence + 1] = start.issued ++ List.range' _ (a.outbox.nextSequence + 1 - _)
          rw [h.issued, range'_snoc (by omega), List.append_assoc] }
  · have hfull := Nat.le_antisymm ha.next hge
    rw [loseCorrelation_exhausted h.enabled hfull, attempt_refused (by rfl), if_neg (lt_irrefl _)]
    exact
      { stream := h.stream, numbered := h.numbered, outcomes := houtcomes, overflowed := rfl, enabled := h.enabled
        issued := h.issued
        firstLost := by
          show a.outbox.firstLostSequence = _
          rw [h.firstLost]
          by_cases hroom : start.outbox.nextSequence + fresh.length < u64Max
          · rw [if_pos ⟨by omega, hroom⟩, if_pos ⟨Nat.succ_pos lost, hroom⟩]
          · rw [if_neg fun hc => hroom hc.2, if_neg fun hc => hroom hc.2]
        suppressed := by
          rw [if_neg (by omega)]
          rfl
        next := by
          show a.outbox.nextSequence = _
          omega }

theorem Exact.push (ha : a.Held) (h : Exact start a fresh lost)
    (draft : Draft) :
    ∃ fresh' lost', Exact start (a.attempt (a.outbox.push draft.bytes draft.create) draft.bytes) fresh' lost' := by
  rcases push_cases h.enabled draft with hrefused | ⟨hover, hlt, -, -, hpush⟩
  · rw [hrefused]
    exact ⟨fresh, lost + 1, h.lose ha draft.bytes⟩
  · -- nothing was lost before, so the facts are as many as the numbers
    have hlost : lost = 0 := by
      have hdecide := h.overflowed.symm.trans hover
      simpa using hdecide
    subst hlost
    have hnext := h.next
    have hexact : a.outbox.nextSequence = start.outbox.nextSequence + fresh.length := by omega
    obtain ⟨hknown, hcount⟩ := suppressed_eq_some.1 (h.suppressed.trans (if_pos (by omega)))
    rw [hpush, attempt_retained (by rfl) (by rfl)]
    refine ⟨fresh ++ [draft.create (a.outbox.nextSequence + 1)], 0, ?_⟩
    exact
      { enabled := h.enabled
        stream := by
          show a.returned ++ (a.outbox.facts ++ [draft.create (a.outbox.nextSequence + 1)]) = _
          rw [← List.append_assoc, h.stream, List.append_assoc]
        numbered := by
          rw [List.map_append, h.numbered, List.map_singleton, draft.numbered, List.length_append, List.length_singleton,
            List.range'_concat, hexact]
          simp [Nat.add_right_comm]
        outcomes := by
          show a.outcomes ++ [true] = _
          rw [h.outcomes, List.length_append, List.length_singleton, List.replicate_succ']
          simp
        overflowed := hover
        firstLost := h.firstLost
        suppressed := by
          rw [List.length_append, List.length_singleton, if_pos (by omega), suppressed_eq_some]
          exact ⟨hknown, hcount⟩
        next := by
          show a.outbox.nextSequence + 1 = _
          rw [List.length_append, List.length_singleton]
          omega
        issued := by
          show a.issued ++ [a.outbox.nextSequence + 1] = start.issued ++ List.range' _ (a.outbox.nextSequence + 1 - _)
          rw [h.issued, range'_snoc (by omega), List.append_assoc] }

theorem Exact.step (ha : a.Held) (h : Exact start a fresh lost)
    (op : PeriodOp) : ∃ fresh' lost', Exact start (a.step (.within op)) fresh' lost' := by
  cases op with
  | take =>
    refine ⟨fresh, lost, { h with stream := ?_ }⟩
    calc (a.returned ++ a.outbox.facts) ++ [] = a.returned ++ a.outbox.facts := List.append_nil _
      _ = start.outbox.facts ++ fresh := h.stream
  | loseCorrelation => exact ⟨fresh, lost + 1, h.lose ha 0⟩
  | push draft => exact h.push ha draft

theorem Exact.run (ha : a.Held) (h : Exact start a fresh lost)
    (period : List PeriodOp) : ∃ fresh' lost', Exact start (a.run (period.map .within)) fresh' lost' := by
  induction period generalizing a fresh lost with
  | nil => exact ⟨fresh, lost, h⟩
  | cons op period ih =>
    obtain ⟨fresh', lost', hstep⟩ := h.step ha op
    exact ih (ha.step (.within op)) hstep

/-- After any history, a period that is armed without a further arm or disarm: what was queued at the
arm comes first, then the retained facts of the period under consecutive numbers up to the first
lost one. Nothing is queued at an arm of an outbox that was disarmed. -/
theorem loss_accounted (earlier : List Op) (period : List PeriodOp) :
    (∃ fresh lost, Exact ((initial.run earlier).step .enable) (((initial.run earlier).step .enable).run (period.map .within))
      fresh lost) ∧
    (((initial.run earlier).step .enable).run (period.map .within)).Held ∧
    ((initial.run earlier).outbox.enabled = false → ((initial.run earlier).step .enable).outbox.facts = []) := by
  have hearlier := Held.initial.run earlier
  have henable := hearlier.step .enable
  refine ⟨?_, henable.run _, hearlier.idle⟩
  exact (Exact.of_enable hearlier).run henable period

/-! ### A fact that outlived its period -/

def draft (bytes : ℕ) : Draft where
  bytes := bytes
  create sequence := .controller sequence 0 .created 0 none 0
  numbered _ := rfl

/-- Armed again without a disarm, the outbox still holds fact 1 of a period that lost fact 2. -/
theorem carried_fact_leaves_gap : ¬ ∀ (earlier : List Op) (period : List PeriodOp),
    let a := ((initial.run earlier).step .enable).run (period.map .within)
    ∃ first count, (a.returned ++ a.outbox.facts).map RecordingFact.sequence = List.range' first count := by
  intro h
  obtain ⟨first, count, hnumbers⟩ := h
    [.enable, .within (.push (draft 256)), .within (.push (draft (maxRecordingFactBytes + 1)))]
    [.push (draft 256), .take]
  have hgap : [1, 3] = List.range' first count := by
    rw [← hnumbers]
    decide +kernel
  have hcount : count = 2 := by
    have hlength := congrArg List.length hgap
    simpa using hlength.symm
  subst hcount
  simp only [List.range'_succ, List.range'_zero, List.cons.injEq] at hgap
  omega

end Account

end LabRuntime.FactOutbox
