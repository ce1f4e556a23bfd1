import LabRuntime.Lib.History
import LabRuntime.Recorder.Numbering

/-! The lifecycle that the order of messages spells out: a start opens a run, a stop or the seal of
a gap closes it. The store's own run is the one that its settled messages leave open. -/

namespace LabRuntime.Recorder

open History

namespace Message

/-- Starts and stops. -/
def barrier : Message → Bool
  | .start .. => true
  | .stop .. => true
  | _ => false

def isGapSeal : Message → Bool
  | .gapSeal .. => true
  | _ => false

def isFinish : Message → Bool
  | .finish .. => true
  | _ => false

/-- When a message was submitted, as its receipt confirms it. -/
def submission : Message → Option ℕ
  | .activation _ lifecycle => lifecycle.map fun live => live.record.time
  | .start _ _ submittedAt _ _ => some submittedAt
  | .facts group => some group.submittedAt
  | .operation record _ _ => some record.time
  | .referenceAccepted record _ _ => some record.time
  | .referenceCompletion _ capturedAt terminal _ _ => some (max capturedAt terminal.time)
  | Message.annotation note _ _ => some note.time
  | .probe submittedAt => some submittedAt
  | _ => none

theorem barrier_records {m : Message} (h : m.records = 0) : m.barrier = false := by
  cases m <;> first | rfl | cases h

end Message

/-- How many runs have been started or stopped. -/
def barriers (ms : List Message) : ℕ := ms.countP Message.barrier

@[simp] theorem barriers_nil : barriers [] = 0 := rfl

@[simp] theorem barriers_append (ms ns : List Message) : barriers (ms ++ ns) = barriers ms + barriers ns :=
  List.countP_append

@[simp] theorem barriers_cons (m : Message) (ms : List Message) :
    barriers (m :: ms) = barriers ms + if m.barrier then 1 else 0 := List.countP_cons

theorem barriers_eq_zero {ms : List Message} (h : Spans.total Message.records ms = 0) : barriers ms = 0 := by
  induction ms with
  | nil => rfl
  | cons m ms ih =>
    rw [Spans.total_cons] at h
    rw [barriers_cons, ih (by omega), Message.barrier_records (by omega)]
    rfl

/-- No gap has been sealed. -/
def Gapless (ms : List Message) : Prop := ∀ m ∈ ms, m.isGapSeal = false

@[simp] theorem gapless_nil : Gapless [] := by simp [Gapless]

@[simp] theorem gapless_append {ms ns : List Message} : Gapless (ms ++ ns) ↔ Gapless ms ∧ Gapless ns := by
  simp [Gapless, or_imp, forall_and]

@[simp] theorem gapless_singleton {m : Message} : Gapless [m] ↔ m.isGapSeal = false := by
  simp [Gapless]

/-- The messages leave a run open. -/
def Running (ms : List Message) : Prop := ¬ Even (barriers ms) ∧ Gapless ms

theorem not_running_nil : ¬ Running [] := fun h => h.1 (by simp)

/-- A message that is neither opens no run and closes none. -/
theorem running_snoc {ms : List Message} {m : Message} (hbarrier : m.barrier = false) (hgap : m.isGapSeal = false) :
    Running (ms ++ [m]) ↔ Running ms := by
  simp [Running, hbarrier, hgap]

/-- What has been sent before a message. -/
def Message.Placed (pre : List Message) : Message → Prop
  | .start .. => Even (barriers pre) ∧ Gapless pre
  | .stop .. => Running pre
  | .facts _ => Running pre
  | .referenceAccepted .. => Running pre
  | .referenceCompletion .. => Running pre
  | Message.annotation .. => Running pre
  | .probe _ => Running pre
  | .operation record _ _ => Running pre ∨ record.stopTerminal = true
  | .gapSeal .. => Gapless pre
  | .finish .. => ∀ m ∈ pre, m.isFinish = false
  | _ => True

/-! ### What a transaction does to the runs -/

namespace SqliteStore

variable {store store' : SqliteStore}

/-- The runs and the seal of the boot stay. -/
structure Steady (store store' : SqliteStore) : Prop where
  runNo : store'.runNo = store.runNo
  nextRunNo : store'.nextRunNo = store.nextRunNo
  runs : store'.runs = store.runs
  bootSealed : store'.bootSealed = store.bootSealed

theorem steady_refl (store : SqliteStore) : store.Steady store := ⟨rfl, rfl, rfl, rfl⟩

theorem appendGroups_steady {groups : List (List Fact)} {terminal : Option OperationRecord}
    (h : store.appendGroupsWithTerminal groups terminal = .ok store') : store.Steady store' := by
  unfold appendGroupsWithTerminal at h
  simp only [require_bind, following_bind] at h
  obtain ⟨-, -, -, h⟩ := h
  cases terminal with
  | none =>
    cases h
    exact ⟨rfl, rfl, rfl, rfl⟩
  | some operation =>
    simp only [following_bind] at h
    obtain ⟨-, h⟩ := h
    cases h
    exact ⟨rfl, rfl, rfl, rfl⟩

theorem appendOperation_steady {operation : OperationRecord} {recordSeq : ℕ}
    (h : store.appendOperation operation recordSeq = .ok store') : store.Steady store' := by
  unfold appendOperation at h
  simp only [require_bind, following_bind] at h
  obtain ⟨-, -, -, -, h⟩ := h
  cases h
  exact ⟨rfl, rfl, rfl, rfl⟩

theorem appendAnnotation_steady {note : AnnotationRecord} {recordSeq : ℕ}
    (h : store.appendAnnotation note recordSeq = .ok store') : store.Steady store' := by
  unfold appendAnnotation at h
  simp only [require_bind, following_bind] at h
  obtain ⟨-, -, h⟩ := h
  cases h
  exact ⟨rfl, rfl, rfl, rfl⟩

theorem appendClockAnchor_steady {recordSeq : ℕ} (h : store.appendClockAnchor recordSeq = .ok store') :
    store.Steady store' := by
  unfold appendClockAnchor at h
  simp only [require_bind, following_bind] at h
  obtain ⟨-, -, -, -, h⟩ := h
  cases h
  exact ⟨rfl, rfl, rfl, rfl⟩

theorem probe_steady {submittedAt : ℕ} (h : store.probe submittedAt = .ok store') : store.Steady store' := by
  unfold probe at h
  simp only [require_bind, following_bind] at h
  obtain ⟨-, -, h⟩ := h
  cases h
  exact ⟨rfl, rfl, rfl, rfl⟩

theorem commitActivation_steady {lifecycle : Option LiveActivation} (h : store.commitActivation lifecycle = .ok store') :
    store.Steady store' := by
  unfold commitActivation at h
  cases lifecycle with
  | none =>
    simp only [following_bind] at h
    obtain ⟨-, h⟩ := h
    cases h
    exact ⟨rfl, rfl, rfl, rfl⟩
  | some live =>
    simp only [require_bind, following_bind] at h
    obtain ⟨-, -, -, h⟩ := h
    cases h
    exact ⟨rfl, rfl, rfl, rfl⟩

/-- A run is opened where none is. -/
structure Opens (store store' : SqliteStore) : Prop where
  none : store.runNo = none
  runNo : store'.runNo = some store.nextRunNo
  nextRunNo : store'.nextRunNo = store.nextRunNo + 1
  bootSealed : store'.bootSealed = store.bootSealed
  runs : ∃ run, store'.runs = store.runs ++ [run] ∧ run.runNo = store.nextRunNo ∧ run.state = .recording ∧
    run.coverage = .complete

/-- The open run ends, and its row alone changes. -/
structure Closes (change : RunRow → RunRow) (store store' : SqliteStore) : Prop where
  runNo : store'.runNo = none
  nextRunNo : store'.nextRunNo = store.nextRunNo
  bootSealed : store'.bootSealed = store.bootSealed
  runs : ∃ runNo, store.runNo = some runNo ∧ store'.runs = store.sealRun runNo change

/-- The boot is sealed once, with no run open. -/
structure Seals (store store' : SqliteStore) : Prop where
  none : store.runNo = none
  unsealed : store.bootSealed = false
  runNo : store'.runNo = store.runNo
  nextRunNo : store'.nextRunNo = store.nextRunNo
  runs : store'.runs = store.runs
  bootSealed : store'.bootSealed = true

def sealing (run : RunRow) : RunRow := { run with state := .sealed }

def losing (run : RunRow) : RunRow := { run with state := .failed, coverage := .gap }

/-- What the transaction of a message does to the runs. -/
def Turned (store store' : SqliteStore) : Message → Prop
  | .start .. => store.Opens store'
  | .stop .. => Closes sealing store store'
  | .gapSeal .. => Closes losing store store'
  | .finish .. => store.Seals store'
  | _ => store.Steady store'

theorem startRun_opens {label : String} {policy : RecordingPolicy} {boundary : BoundarySnapshot} {firstRecord : ℕ}
    (h : store.startRun label policy boundary firstRecord = .ok store') : store.Opens store' := by
  unfold startRun at h
  simp only [require_bind, following_bind] at h
  obtain ⟨-, ⟨hnone, -⟩, -, -, -, -, -, -, h⟩ := h
  cases h
  exact ⟨hnone, rfl, rfl, rfl, _, rfl, rfl, rfl, rfl⟩

theorem stopRun_closes {summary : Summary} {firstRecord : ℕ} (h : store.stopRun summary firstRecord = .ok store') :
    Closes sealing store store' := by
  unfold stopRun at h
  simp only [require_bind] at h
  obtain ⟨-, h⟩ := h
  cases hrun : store.runNo with
  | none =>
    rw [hrun] at h
    cases h
  | some runNo =>
    rw [hrun] at h
    simp only [require_bind, following_bind] at h
    obtain ⟨-, -, -, -, -, h⟩ := h
    cases h
    exact ⟨rfl, rfl, rfl, runNo, hrun, rfl⟩

theorem failRun_closes {gap : RecorderGap} {recordSeq : ℕ} (h : store.failRun gap recordSeq = .ok store') :
    Closes losing store store' := by
  unfold failRun at h
  simp only [require_bind] at h
  obtain ⟨-, -, h⟩ := h
  cases hrun : store.runNo with
  | none =>
    rw [hrun] at h
    cases h
  | some runNo =>
    rw [hrun] at h
    simp only [following_bind] at h
    obtain ⟨-, -, h⟩ := h
    cases h
    exact ⟨rfl, rfl, rfl, runNo, hrun, rfl⟩

theorem finishBoot_seals {evidence : Summary} {firstRecord : ℕ} (h : store.finishBoot evidence firstRecord = .ok store') :
    store.Seals store' := by
  unfold finishBoot at h
  simp only [require_bind, following_bind] at h
  obtain ⟨-, ⟨hnone, hunsealed⟩, -, -, -, -, -, h⟩ := h
  cases h
  exact ⟨hnone, by simpa using hunsealed, rfl, rfl, rfl, rfl⟩

end SqliteStore

theorem executeBatch_steady {store store' : SqliteStore} {groups : List FactGroup}
    (h : Work.executeBatch store groups = .ok store') : store.Steady store' := by
  cases groups with
  | nil => cases h
  | cons group groups =>
    unfold Work.executeBatch at h
    dsimp only at h
    split_ifs at h
    unfold SqliteStore.appendFactGroups at h
    simp only [require_bind] at h
    exact SqliteStore.appendGroups_steady h.2

/-- What a message does to the runs. -/
theorem Work.execute_turned {store store' : SqliteStore} {message : Message}
    (h : (Work.one message).execute store = .ok store') : store.Turned store' message := by
  cases message with
  | activation root lifecycle => exact SqliteStore.commitActivation_steady h
  | start label policy submittedAt boundary firstRecord => exact SqliteStore.startRun_opens h
  | facts group =>
    have hbatch : executeBatch store [group] = .ok store' := h
    exact executeBatch_steady hbatch
  | clockAnchor assigned => exact SqliteStore.appendClockAnchor_steady h
  | operation operation bytes assigned => exact SqliteStore.appendOperation_steady h
  | referenceAccepted operation bytes assigned => exact SqliteStore.appendOperation_steady h
  | referenceCompletion fact capturedAt terminal bytes firstRecord =>
    change store.appendReferenceCompletion fact terminal firstRecord = .ok store' at h
    unfold SqliteStore.appendReferenceCompletion at h
    simp only [require_bind] at h
    exact SqliteStore.appendGroups_steady h.2
  | annotation note bytes assigned => exact SqliteStore.appendAnnotation_steady h
  | gapSeal gap assigned => exact SqliteStore.failRun_closes h
  | probe submittedAt => exact SqliteStore.probe_steady h
  | history job => cases h; exact store.steady_refl
  | runs job => cases h; exact store.steady_refl
  | stop summary requestedAt firstRecord => exact SqliteStore.stopRun_closes h
  | finish summary time firstRecord => exact SqliteStore.finishBoot_seals h

/-! ### The store's run -/

theorem barriers_batch (groups : List FactGroup) : barriers (groups.map .facts) = 0 := by
  simp [barriers, List.countP_eq_zero, Message.barrier]

theorem gapless_batch (groups : List FactGroup) : Gapless (groups.map .facts) := by
  simp [Gapless, Message.isGapSeal]

/-- The store has a run open where the settled messages leave one open. -/
def SqliteStore.Agrees (store : SqliteStore) (settled : List Message) : Prop :=
  store.runNo.isSome = true ↔ Running settled

theorem SqliteStore.agrees_opened : SqliteStore.opened.Agrees [] :=
  iff_of_false (by simp [opened]) not_running_nil

theorem SqliteStore.Steady.agrees {store store' : SqliteStore} {settled more : List Message} (h : store.Steady store')
    (hs : store.Agrees settled) (hbarriers : barriers more = 0) (hgapless : Gapless more) :
    store'.Agrees (settled ++ more) := by
  unfold Agrees Running
  rw [h.runNo, barriers_append, hbarriers, Nat.add_zero, gapless_append, and_iff_left hgapless]
  exact hs

/-- A transaction keeps the store in agreement with the messages it settles. -/
theorem Work.execute_agrees {store store' : SqliteStore} {work : Work} {settled : List Message}
    (h : work.execute store = .ok store') (hs : store.Agrees settled)
    (hplaced : Hitherto Message.Placed (settled ++ work.messages)) : store'.Agrees (settled ++ work.messages) := by
  cases work with
  | batch groups => exact (executeBatch_steady h).agrees hs (barriers_batch groups) (gapless_batch groups)
  | one message =>
    have hturned := Work.execute_turned h
    have hnext : message.Placed settled := hplaced.next
    change store'.Agrees (settled ++ [message])
    cases message with
    | start label policy submittedAt boundary firstRecord =>
      obtain ⟨heven, hgapless⟩ : Even (barriers settled) ∧ Gapless settled := hnext
      refine iff_of_true (by rw [hturned.runNo]; rfl) ⟨?_, gapless_append.2 ⟨hgapless, by simp [Message.isGapSeal]⟩⟩
      simp [Message.barrier, Nat.even_add_one, heven]
    | stop summary requestedAt firstRecord =>
      obtain ⟨hodd, -⟩ : Running settled := hnext
      refine iff_of_false (by rw [hturned.runNo]; simp) fun h => h.1 ?_
      simpa [Message.barrier, Nat.even_add_one] using hodd
    | gapSeal gap assigned =>
      refine iff_of_false (by rw [hturned.runNo]; simp) fun h => ?_
      simp [Running, Message.isGapSeal] at h
    | finish summary time firstRecord =>
      have hsteady : store'.runNo = store.runNo := hturned.runNo
      unfold SqliteStore.Agrees
      rw [hsteady, running_snoc rfl rfl]
      exact hs
    | _ => exact SqliteStore.Steady.agrees hturned hs rfl (by simp [Message.isGapSeal])

end LabRuntime.Recorder
