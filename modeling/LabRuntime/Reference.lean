import LabRuntime.Recording
import LabRuntime.Lib.Approach
import Mathlib.Algebra.Order.Ring.Rat
import Mathlib.Tactic.NormNum

/-! Native references in Runtime time: constants, and ramps that advance at each evaluation. The
engineering arithmetic is exact here. -/

namespace LabRuntime

open Approach

/-! ### Configuration -/

/-- A number a caller hands in: `none` stands for one that is not finite. -/
abbrev Engineering := Option ℚ

inductive ReferenceConfig
  | fixed (id : ReferenceId) (value : Engineering) (unit : EngineeringUnit)
  | ramp (id : ReferenceId) (start target rate : Engineering) (unit : EngineeringUnit) (now : ℕ)

def ReferenceConfig.id : ReferenceConfig → ReferenceId
  | .fixed id .. => id
  | .ramp id .. => id

inductive ReferenceError
  | invalidConfiguration | invalidTime | revisionConflict | notRamp | revisionExhausted
  deriving DecidableEq, Repr

structure ReferenceValue where
  value : ℚ
  unit : EngineeringUnit
  time : ℕ

/-- `Duration::as_secs_f64`. -/
def seconds (d : ℕ) : ℚ := d / 1000000000

/-! ### Constants -/

structure FixedReference where
  value : ℚ
  unit : EngineeringUnit
  lastAt : Option ℕ

def FixedReference.new (value : Engineering) (unit : EngineeringUnit) : Except ReferenceError FixedReference :=
  match value with
  | none => .error .invalidConfiguration
  | some value => .ok ⟨value, unit, none⟩

def FixedReference.valueAt (r : FixedReference) (now : ℕ) : Except ReferenceError ReferenceValue × FixedReference :=
  if r.lastAt.any (now < ·) then (.error .invalidTime, r)
  else (.ok ⟨r.value, r.unit, now⟩, { r with lastAt := some now })

/-! ### Ramps -/

structure RampSnapshot where
  current : ℚ
  target : ℚ
  rate : ℚ
  unit : EngineeringUnit
  lastAt : ℕ

structure RampReference where
  state : RampSnapshot
  positive : 0 < state.rate

/-- What `validate_ramp` lets through. -/
structure ValidRamp where
  start : ℚ
  target : ℚ
  rate : ℚ
  positive : 0 < rate

def validateRamp (start target rate : Engineering) : Except ReferenceError ValidRamp :=
  match start, target, rate with
  | some start, some target, some rate =>
    if h : 0 < rate then .ok ⟨start, target, rate, h⟩ else .error .invalidConfiguration
  | _, _, _ => .error .invalidConfiguration

/-- `f64::signum`, which is 1 at zero. -/
def signum (x : ℚ) : ℚ := if x < 0 then -1 else 1

namespace RampReference

def new (start target rate : Engineering) (unit : EngineeringUnit) (now : ℕ) : Except ReferenceError RampReference :=
  match validateRamp start target rate with
  | .error e => .error e
  | .ok v => .ok ⟨⟨v.start, v.target, v.rate, unit, now⟩, v.positive⟩

/-- The candidate is always finite in exact arithmetic. -/
def candidateAt (r : RampReference) (now : ℕ) : Except ReferenceError ℚ :=
  if now < r.state.lastAt then .error .invalidTime
  else
    let distance := r.state.target - r.state.current
    let maximumStep := r.state.rate * seconds (now - r.state.lastAt)
    let step := signum distance * min |distance| maximumStep
    .ok (r.state.current + step)

def valueAt (r : RampReference) (now : ℕ) : Except ReferenceError ReferenceValue × RampReference :=
  match r.candidateAt now with
  | .error e => (.error e, r)
  | .ok current =>
    (.ok ⟨current, r.state.unit, now⟩, ⟨{ r.state with current := current, lastAt := now }, r.positive⟩)

/-- A new target and rate from the point the old trajectory has reached. -/
def retune (r : RampReference) (target rate : Engineering) (now : ℕ) : Except ReferenceError Unit × RampReference :=
  match validateRamp (some r.state.current) target rate with
  | .error e => (.error e, r)
  | .ok v =>
    match r.candidateAt now with
    | .error e => (.error e, r)
    | .ok current => (.ok (), ⟨⟨current, v.target, v.rate, r.state.unit, now⟩, v.positive⟩)

end RampReference

/-! ### References of a Runtime -/

inductive ReferenceSnapshot
  | fixed (id : ReferenceId) (value : ℚ) (unit : EngineeringUnit) (lastAt : Option ℕ) (revision : ℕ)
  | ramp (id : ReferenceId) (state : RampSnapshot) (revision : ℕ)

structure RetunedRamp where
  state : RampSnapshot
  revision : ℕ

inductive RuntimeReference
  | fixed (id : ReferenceId) (reference : FixedReference) (revision : ℕ)
  | ramp (id : ReferenceId) (reference : RampReference) (revision : ℕ)

namespace RuntimeReference

def new (config : ReferenceConfig) : Except ReferenceError RuntimeReference :=
  match config with
  | .fixed id value unit =>
    match FixedReference.new value unit with
    | .error e => .error e
    | .ok reference => .ok (.fixed id reference 1)
  | .ramp id start target rate unit now =>
    match RampReference.new start target rate unit now with
    | .error e => .error e
    | .ok reference => .ok (.ramp id reference 1)

def id : RuntimeReference → ReferenceId
  | .fixed id .. => id
  | .ramp id .. => id

def revision : RuntimeReference → ℕ
  | .fixed _ _ revision => revision
  | .ramp _ _ revision => revision

def withRevision (r : RuntimeReference) (next : ℕ) : RuntimeReference :=
  match r with
  | .fixed id reference _ => .fixed id reference next
  | .ramp id reference _ => .ramp id reference next

def snapshot : RuntimeReference → ReferenceSnapshot
  | .fixed id reference revision => .fixed id reference.value reference.unit reference.lastAt revision
  | .ramp id reference revision => .ramp id reference.state revision

/-- Replace a complete stopped-graph Reference without carrying progress. -/
def reconfigure (r : RuntimeReference) (config : ReferenceConfig) (expectedRevision : ℕ) :
    Except ReferenceError ReferenceSnapshot × RuntimeReference :=
  if config.id ≠ r.id ∨ r.revision ≠ expectedRevision then (.error .revisionConflict, r)
  else
    match checkedAdd expectedRevision 1 with
    | none => (.error .revisionExhausted, r)
    | some next =>
      match new config with
      | .error e => (.error e, r)
      | .ok candidate => (.ok (candidate.withRevision next).snapshot, candidate.withRevision next)

def valueAt (r : RuntimeReference) (now : ℕ) : Except ReferenceError ReferenceValue × RuntimeReference :=
  match r with
  | .fixed id reference revision => ((reference.valueAt now).1, .fixed id (reference.valueAt now).2 revision)
  | .ramp id reference revision => ((reference.valueAt now).1, .ramp id (reference.valueAt now).2 revision)

def retune (r : RuntimeReference) (target rate : Engineering) (expectedRevision now : ℕ) :
    Except ReferenceError RetunedRamp × RuntimeReference :=
  match r with
  | .fixed .. => (.error .notRamp, r)
  | .ramp id reference revision =>
    if revision ≠ expectedRevision then (.error .revisionConflict, r)
    else
      match checkedAdd revision 1 with
      | none => (.error .revisionExhausted, r)
      | some next =>
        match reference.retune target rate now with
        | (.error e, kept) => (.error e, .ramp id kept revision)
        | (.ok _, retuned) => (.ok ⟨retuned.state, next⟩, .ramp id retuned next)

end RuntimeReference

end LabRuntime
