import LabRuntime.Managed.MovingMean

/-! The bounded worker pool behind the executor port: two slots, each with one job mailbox, one
completion mailbox and one thread. A call of the owner visits the slots one after another, and
the threads move as they like before every visit. -/

namespace LabRuntime

variable {N : Type}

abbrev workers : ℕ := 2

instance : NeZero workers := ⟨by decide⟩
def jobDeadline : ℕ := 100000000

/-- `Instant::checked_add`: whole seconds fit a signed 64-bit number. -/
def instantAdd (now d : ℕ) : Option ℕ := if now + d < 2 ^ 63 * 1000000000 then some (now + d) else none

/-! ### Threads -/

/-- One admitted job. `ticket` is its place in the order of admissions, which the code does not keep. -/
structure Work (N : Type) where
  invocation : Invocation N
  deadline : ℕ
  ticket : ℕ

inductive Activity (N : Type)
  | receiving
  | running (work : Work N)
  | unwinding (work : Option (Work N))

namespace Activity

def work : Activity N → Option (Work N)
  | receiving => none
  | running work => some work
  | unwinding work => work

/-- The thread is past its loop. -/
def ended : Activity N → Bool
  | unwinding _ => true
  | _ => false

end Activity

/-- A thread with its ends of the two mailboxes. `lost` are the tickets of results that found the
completion mailbox full. -/
structure Worker (N : Type) where
  queue : Option (Work N)
  receiver : Bool
  activity : Activity N
  results : Option (ℕ × ComponentCompletion N)
  sender : Bool
  lost : List ℕ

/-- What a thread does next: the loop of `new_with_runner` with any runner, and its unwinding. -/
inductive WorkerStep (N : Type)
  | receive
  | finish (outcome : Except ComponentError (ComponentResult N)) (now : ℕ)
  | panic
  | leave
  | dropReceiver
  | dropSender

namespace Worker

def start : Worker N :=
  { queue := none, receiver := true, activity := .receiving, results := none, sender := true, lost := [] }

/-- `results.try_send(completion)` of a finished job. -/
def send (w : Worker N) (ticket : ℕ) (completion : ComponentCompletion N) : Worker N :=
  match w.results with
  | none => { w with activity := .receiving, results := some (ticket, completion) }
  | some _ => { w with activity := .receiving, lost := w.lost ++ [ticket] }

/-- One move of the thread, with `jobs` whether the owner still holds the sending end. A mailbox
whose sending end is gone is drained before it reports so. -/
def move (jobs : Bool) (w : Worker N) : WorkerStep N → Worker N
  | .receive =>
    match w.activity, w.queue with
    | .receiving, some work => { w with queue := none, activity := .running work }
    | _, _ => w
  | .finish outcome now =>
    match w.activity with
    | .running work =>
      w.send work.ticket
        { correlation := work.invocation.correlation, timely := decide (now < work.deadline), outcome := outcome }
    | _ => w
  | .panic =>
    match w.activity with
    | .running work => { w with activity := .unwinding (some work) }
    | _ => w
  | .leave =>
    match w.activity, w.queue with
    | .receiving, none => if jobs = true then w else { w with activity := .unwinding none }
    | _, _ => w
  | .dropReceiver => if w.activity.ended = true then { w with receiver := false, queue := none } else w
  | .dropSender => if w.activity.ended = true then { w with sender := false } else w

end Worker

/-! ### Slots -/

structure Busy where
  correlation : Correlation
  deadline : ℕ
  cancelled : Bool
  expired : Bool
  ticket : ℕ

inductive SlotLifecycle
  | alive | dead
  deriving DecidableEq, Repr

/-- `jobs` is whether the owner holds the sending end of the job mailbox. -/
structure Slot (N : Type) where
  lifecycle : SlotLifecycle
  jobs : Bool
  busy : Option Busy
  worker : Worker N

/-- What one slot makes of an offered job. -/
inductive SlotOffer (N : Type)
  | skipped
  | occupied
  | disconnected (slot : Slot N)
  | failed (error : ComponentError)
  | taken (slot : Slot N) (deadline : ℕ)

namespace Slot

def start : Slot N := { lifecycle := .alive, jobs := true, busy := none, worker := .start }

def move (slot : Slot N) (step : WorkerStep N) : Slot N := { slot with worker := slot.worker.move slot.jobs step }

/-- The body of `try_submit` at one slot. -/
def offer (slot : Slot N) (now : ℕ) (invocation : Invocation N) (ticket : ℕ) : SlotOffer N :=
  if slot.lifecycle = .dead then .skipped
  else if slot.busy.isSome = true then .occupied
  else
    match instantAdd now jobDeadline with
    | none => .failed .deadline
    | some deadline =>
      if slot.jobs = false then .failed .executor
      else if slot.worker.receiver = false then .disconnected { slot with lifecycle := .dead, jobs := false }
      else if slot.worker.queue.isSome = true then .occupied
      else
        .taken
          { slot with
            worker := { slot.worker with queue := some ⟨invocation, deadline, ticket⟩ }
            busy := some ⟨invocation.correlation, deadline, false, false, ticket⟩ }
          deadline

/-- The body of `try_poll` at one slot. -/
def collect (slot : Slot N) (now : ℕ) : Option (ℕ × ComponentCompletion N) × Slot N :=
  if slot.lifecycle = .dead then (none, slot)
  else
    match slot.worker.results with
    | some (ticket, completion) =>
      let worker := { slot.worker with results := none }
      match slot.busy with
      | some busy =>
        (some (ticket,
            { completion with
              timely := completion.timely &&
                (!busy.expired && decide (now < busy.deadline) && decide (busy.correlation = completion.correlation)) }),
          { slot with busy := none, worker := worker })
      | none => (some (ticket, { completion with timely := false }), { slot with worker := worker })
    | none =>
      if slot.worker.sender = true then (none, slot)
      else
        match slot.busy with
        | some busy =>
          (some (busy.ticket, { correlation := busy.correlation, timely := false, outcome := .error .executor }),
            { slot with lifecycle := .dead, jobs := false, busy := none })
        | none => (none, { slot with lifecycle := .dead, jobs := false })

def cancel (slot : Slot N) (correlation : Correlation) : Slot N :=
  { slot with busy := slot.busy.map fun busy =>
      if busy.correlation = correlation then { busy with cancelled := true } else busy }

/-- The slot with its job expired, when it holds this one and its deadline is over. -/
def expire (slot : Slot N) (correlation : Correlation) (now : ℕ) : Option (Slot N) :=
  match slot.busy with
  | some busy =>
    if busy.correlation = correlation ∧ busy.deadline ≤ now then
      some { slot with busy := some { busy with expired := true, cancelled := true } }
    else none
  | none => none

def shutdown (slot : Slot N) : Slot N :=
  { slot with busy := slot.busy.map fun busy => { busy with cancelled := true }, jobs := false }

end Slot

/-! ### The owner -/

/-- An admitted job: where it went, its correlation and its deadline. -/
structure Admitted where
  slot : Fin workers
  correlation : Correlation
  deadline : ℕ
  deriving DecidableEq

/-- The pool. `accepted` and `delivered` are the history of the run, which the code does not keep. -/
structure ManagedExecutor (N : Type) where
  slots : Fin workers → Slot N
  cursor : Fin workers
  closed : Bool
  accepted : List Admitted
  delivered : List (ℕ × ComponentCompletion N)

/-- What happens around one visit: the moves of the threads before it and the clock it reads. -/
structure Visit (N : Type) where
  moves : List (Fin workers × WorkerStep N)
  now : ℕ

namespace ManagedExecutor

def new : ManagedExecutor N :=
  { slots := fun _ => .start, cursor := 0, closed := false, accepted := [], delivered := [] }

def setSlot (e : ManagedExecutor N) (index : Fin workers) (slot : Slot N) : ManagedExecutor N :=
  { e with slots := Function.update e.slots index slot }

@[simp] theorem setSlot_self (e : ManagedExecutor N) (index : Fin workers) (slot : Slot N) :
    (e.setSlot index slot).slots index = slot := Function.update_self ..

@[simp] theorem setSlot_of_ne (e : ManagedExecutor N) {index i : Fin workers} (slot : Slot N) (h : i ≠ index) :
    (e.setSlot index slot).slots i = e.slots i := Function.update_of_ne h ..

def work (e : ManagedExecutor N) (index : Fin workers) (step : WorkerStep N) : ManagedExecutor N :=
  e.setSlot index ((e.slots index).move step)

def moved (e : ManagedExecutor N) (moves : List (Fin workers × WorkerStep N)) : ManagedExecutor N :=
  moves.foldl (fun e move => e.work move.1 move.2) e

def offsets : List (Fin workers) := [0, 1]

/-- The visits of `try_submit` that remain, with the live slots counted so far. -/
def submitFrom (visits : Fin workers → Visit N) (invocation : Invocation N) :
    List (Fin workers) → ℕ → ManagedExecutor N → Except ComponentError Unit × ManagedExecutor N
  | [], alive, e => (.error (if alive = 0 then .executor else .busy), e)
  | offset :: rest, alive, e =>
    let met := e.moved (visits offset).moves
    let index := met.cursor + offset
    match (met.slots index).offer (visits offset).now invocation met.accepted.length with
    | .skipped => submitFrom visits invocation rest alive met
    | .occupied => submitFrom visits invocation rest (alive + 1) met
    | .disconnected slot => submitFrom visits invocation rest alive (met.setSlot index slot)
    | .failed error => (.error error, met)
    | .taken slot deadline =>
      (.ok (), { met.setSlot index slot with
        cursor := index + 1, accepted := met.accepted ++ [⟨index, invocation.correlation, deadline⟩] })

def trySubmit [Scalar N] (visits : Fin workers → Visit N) (invocation : Invocation N) (e : ManagedExecutor N) :
    Except ComponentError Unit × ManagedExecutor N :=
  match Registry.validateInvocation invocation with
  | .error error => (.error error, e)
  | .ok _ => if e.closed = true then (.error .executor, e) else submitFrom visits invocation offsets 0 e

def pollFrom (visits : Fin workers → Visit N) :
    List (Fin workers) → ManagedExecutor N → Option (ℕ × ComponentCompletion N) × ManagedExecutor N
  | [], e => (none, e)
  | offset :: rest, e =>
    let met := e.moved (visits offset).moves
    let index := met.cursor + offset
    match (met.slots index).collect (visits offset).now with
    | (some completion, slot) =>
      (some completion, { met.setSlot index slot with cursor := index + 1, delivered := met.delivered ++ [completion] })
    | (none, slot) => pollFrom visits rest (met.setSlot index slot)

def tryPoll (visits : Fin workers → Visit N) (e : ManagedExecutor N) :
    Option (ℕ × ComponentCompletion N) × ManagedExecutor N := pollFrom visits offsets e

def tryCancel (correlation : Correlation) (e : ManagedExecutor N) : ManagedExecutor N :=
  { e with slots := fun i => (e.slots i).cancel correlation }

def expireFrom (correlation : Correlation) (now : Fin workers → ℕ) :
    List (Fin workers) → ManagedExecutor N → Bool × ManagedExecutor N
  | [], e => (false, e)
  | index :: rest, e =>
    match (e.slots index).expire correlation (now index) with
    | some slot => (true, e.setSlot index slot)
    | none => expireFrom correlation now rest e

def tryExpire (correlation : Correlation) (now : Fin workers → ℕ) (e : ManagedExecutor N) : Bool × ManagedExecutor N :=
  expireFrom correlation now offsets e

def beginShutdown (e : ManagedExecutor N) : ManagedExecutor N :=
  { e with closed := true, slots := fun i => (e.slots i).shutdown }

/-! ### Runs -/

inductive Op (N : Type)
  | submit (visits : Fin workers → Visit N) (invocation : Invocation N)
  | poll (visits : Fin workers → Visit N)
  | cancel (correlation : Correlation)
  | expire (correlation : Correlation) (now : Fin workers → ℕ)
  | shutdown
  | work (index : Fin workers) (step : WorkerStep N)

def apply [Scalar N] (e : ManagedExecutor N) : Op N → ManagedExecutor N
  | .submit visits invocation => (e.trySubmit visits invocation).2
  | .poll visits => (e.tryPoll visits).2
  | .cancel correlation => e.tryCancel correlation
  | .expire correlation now => (e.tryExpire correlation now).2
  | .shutdown => e.beginShutdown
  | .work index step => e.work index step

def run [Scalar N] (e : ManagedExecutor N) (ops : List (Op N)) : ManagedExecutor N := ops.foldl apply e

end ManagedExecutor
end LabRuntime
