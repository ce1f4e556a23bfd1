import LabRuntime.Descriptor

/-! Bounded recent observations. A sample couples identity, value or failure, unit and times;
its buffer owns their order and evicts the oldest. -/

namespace LabRuntime

def maxHistoryCapacity : ℕ := 4096

inductive SampleQuality
  | good | unavailable
  deriving DecidableEq, Repr

inductive Reading
  | good (value : Value)
  | unavailable (reason : MeasurementFailure)
  deriving DecidableEq, Repr

/-- One attempted observation: `time` is its commit time, `freshnessTime` that of its source. -/
structure Sample where
  signal : SignalId
  unit : EngineeringUnit
  time : ℕ
  freshnessTime : ℕ
  reading : Reading
  deriving Repr

namespace Sample

def good (signal : SignalId) (unit : EngineeringUnit) (now : ℕ) (value : Value) : Sample :=
  { signal := signal, unit := unit, time := now, freshnessTime := now, reading := .good value }

def unavailable (signal : SignalId) (unit : EngineeringUnit) (now : ℕ) (reason : MeasurementFailure) : Sample :=
  { signal := signal, unit := unit, time := now, freshnessTime := now, reading := .unavailable reason }

def quality (s : Sample) : SampleQuality :=
  match s.reading with
  | .good _ => .good
  | .unavailable _ => .unavailable

def value (s : Sample) : Option Value :=
  match s.reading with
  | .good value => some value
  | .unavailable _ => none

def failure (s : Sample) : Option MeasurementFailure :=
  match s.reading with
  | .good _ => none
  | .unavailable reason => some reason

end Sample

/-- The window of one signal, oldest sample first. -/
structure SignalBuffer where
  id : SignalId
  capacity : ℕ
  samples : List Sample
  deriving Repr

namespace SignalBuffer

def new (id : SignalId) (capacity : ℕ) : Except Error SignalBuffer :=
  if 1 ≤ capacity ∧ capacity ≤ maxHistoryCapacity then
    .ok { id := id, capacity := capacity, samples := [] }
  else .error (.invalidConfiguration "history capacity must be in 1..=4096")

def latest (b : SignalBuffer) : Option Sample := b.samples.getLast?

def checkTime (b : SignalBuffer) (now : ℕ) : Except Error Unit :=
  match b.latest with
  | some previous =>
    if now ≤ previous.time then .error (.nonMonotonicTime b.id previous.time now) else .ok ()
  | none => .ok ()

def push (b : SignalBuffer) (sample : Sample) : Except Error SignalBuffer :=
  if sample.signal ≠ b.id then .error (.unknownSignal sample.signal)
  else match b.checkTime sample.time with
  | .error error => .error error
  | .ok _ =>
    -- evict before the push, so the bound holds throughout
    let kept := if b.samples.length = b.capacity then b.samples.tail else b.samples
    .ok { b with samples := kept ++ [sample] }

/-- A trusted failure is pushed, or takes the place of a sample of the same time. -/
def invalidate (b : SignalBuffer) (now : ℕ) (reason : MeasurementFailure) : Except Error Unit × SignalBuffer :=
  match b.latest with
  | none => (.error (.invalidConfiguration "cannot invalidate a signal without an installed unit"), b)
  | some last =>
    if now < last.time then (.error (.nonMonotonicTime b.id last.time now), b)
    else
      let failure := Sample.unavailable b.id last.unit now reason
      if last.time = now then (.ok (), { b with samples := b.samples.dropLast ++ [failure] })
      else match b.push failure with
        | .error error => (.error error, b)
        | .ok b => (.ok (), b)

/-- Nothing was attempted at or after this time. -/
def Before (b : SignalBuffer) (now : ℕ) : Prop := ∀ sample, b.latest = some sample → sample.time < now

instance (b : SignalBuffer) (now : ℕ) : Decidable (b.Before now) := by
  unfold Before
  exact match b.latest with
  | none => .isTrue (by simp)
  | some sample => decidable_of_iff (sample.time < now) (by simp)

theorem checkTime_ok {b : SignalBuffer} {now : ℕ} : b.checkTime now = .ok () ↔ b.Before now := by
  unfold checkTime Before
  cases b.latest with
  | none => simp
  | some sample => simp

/-- A push succeeds for the buffer's own signal at a later time, and is then the latest sample. -/
theorem push_ok {b b' : SignalBuffer} {sample : Sample} (h : b.push sample = .ok b') :
    sample.signal = b.id ∧ b.Before sample.time ∧ b'.latest = some sample ∧ b'.id = b.id := by
  unfold push at h
  by_cases hid : sample.signal = b.id
  · rw [if_neg (not_not.2 hid)] at h
    cases htime : b.checkTime sample.time with
    | error error => simp [htime] at h
    | ok _ =>
      rw [htime] at h
      obtain rfl := Except.ok.inj h
      exact ⟨hid, checkTime_ok.1 htime, by simp [latest], rfl⟩
  · simp [hid] at h

theorem push_of_before {b : SignalBuffer} {sample : Sample} (hid : sample.signal = b.id)
    (h : b.Before sample.time) : ∃ b', b.push sample = .ok b' ∧ b'.latest = some sample ∧ b'.id = b.id := by
  unfold push
  rw [if_neg (not_not.2 hid), checkTime_ok.2 h]
  exact ⟨_, rfl, by simp [latest], rfl⟩

theorem push_error {b : SignalBuffer} {sample : Sample} (h : ¬ b.Before sample.time) : ∃ error, b.push sample = .error error := by
  cases hpush : b.push sample with
  | error error => exact ⟨error, rfl⟩
  | ok b' => exact absurd (push_ok hpush).2.1 h

end SignalBuffer
end LabRuntime
