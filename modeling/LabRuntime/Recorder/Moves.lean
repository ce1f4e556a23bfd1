import Mathlib.Logic.Relation
import LabRuntime.Recorder.Calls

/-! What the calls can do, said once: every call is a path of small moves, each between two points
at which the worker may overtake the owner. Invariants are proved for one move. -/

namespace LabRuntime.Recorder

variable {layout : FactLayout}

namespace RecorderWorker

/-- No record number is left. -/
def Exhausted (o : RecorderWorker layout) : Prop := u64Max < o.reservedThrough + 1

/-- Every subtraction of credit that the owner may attempt has something to subtract from. -/
structure Sound (o : RecorderWorker layout) : Prop where
  reference : o.charged.contains o.referenceCredit = true
  unused : o.referenceCredit.contains o.unusedReference = true
  bounded : o.limits = .default → (protectedCredit layout).contains o.referenceCredit = true
  groups : o.reservedFactGroups ≠ [] → o.charged.contains factGroupCredit = true

/-- An ordinary group fits beside the protected credit. -/
def Fits (o : RecorderWorker layout) (records bytes : ℕ) : Prop :=
  ∃ free, o.protectedFree = some free ∧ o.fitsBeside free records bytes = true

/-- The next `count` numbers, as a call plans them. -/
def Next (o : RecorderWorker layout) (count first last : ℕ) : Prop := o.plannedRange count = some (first, last)

theorem next_iff {o : RecorderWorker layout} {count first last : ℕ} :
    o.Next count first last ↔
      first = o.reservedThrough + 1 ∧ o.reservedThrough + 1 ≤ u64Max ∧ last = o.reservedThrough + count ∧
        o.reservedThrough + count ≤ u64Max := by
  unfold Next plannedRange
  cases hfirst : checkedAdd o.reservedThrough 1 with
  | none =>
    have := checkedAdd_eq_none.1 hfirst
    simp only [false_iff, reduceCtorEq]
    omega
  | some a =>
    obtain ⟨rfl, ha⟩ := checkedAdd_eq_some.1 hfirst
    cases hlast : checkedAdd o.reservedThrough count with
    | none =>
      have := checkedAdd_eq_none.1 hlast
      simp only [false_iff, reduceCtorEq]
      omega
    | some b =>
      obtain ⟨rfl, hb⟩ := checkedAdd_eq_some.1 hlast
      simp only [Option.some.injEq, Prod.mk.injEq]
      omega

/-- What the owner notes with a message that the channel takes. -/
inductive Offer (o : RecorderWorker layout) : Message → RecorderWorker layout → Prop
  | startupActivation (root : ActivationRoot) (idle : o.cached.state = .idle ∨ o.Exhausted)
      (unactivated : o.cached.activationRoot = none) :
      Offer o (.activation root none) { o with pendingActivationGeneration := some 1 }
  | liveActivation (root : ActivationRoot) (lifecycle : ConfigurationLifecycleRecord)
      (reservation : LiveActivationReservation) (assigned last : ℕ)
      (reserved : o.liveActivationReservation = some reservation) (valid : lifecycle.valid = true)
      (next : o.Next 1 assigned last) :
      Offer o (.activation root (some
          { record := lifecycle, bytes := reservation.bytes, assigned, generation := reservation.generation }))
        { o.noteSubmission lifecycle.time with reservedThrough := assigned, liveActivationReservation := none }
  | start (label : String) (submittedAt : ℕ) (boundary : BoundarySnapshot) (first last : ℕ)
      (idle : o.cached.state = .idle) (named : isBlank label = false ∧ label.utf8ByteSize ≤ 128)
      (valid : boundary.time = submittedAt ∧ boundary.valid = true) (next : o.Next 2 first last) :
      Offer o (.start label o.selectedPolicy submittedAt boundary first)
        { o.setState .starting with
          reservedThrough := last, lastOwnerSubmission := some submittedAt, lastProbeRequested := some submittedAt }
  | stop (summary : Summary) (requestedAt first last : ℕ) (recording : o.cached.state = .recording)
      (free : o.referenceCompletion = none) (short : summary.len ≤ 16 * 1024 - 512) (next : o.Next 2 first last) :
      Offer o (.stop summary requestedAt first) { o.setState .stopping with reservedThrough := last }
  | probe (submittedAt : ℕ) (recording : o.cached.state = .recording) (quiet : o.probePending = false)
      (due : probeDue o.lastProbeRequested submittedAt = true) :
      Offer o (.probe submittedAt)
        { o.noteSubmission submittedAt with lastProbeRequested := some submittedAt, probePending := true }
  | finish (summary : Summary) (time first last : ℕ) (ended : o.cached.state = .idle ∨ o.cached.state = .failed)
      (fresh : o.finishRequested = false) (free : o.referenceCompletion = none) (short : summary.len ≤ 16 * 1024)
      (next : o.Next 2 first last) :
      Offer o (.finish summary time first) { o with reservedThrough := last, finishRequested := true }
  | facts (group : Group) (submittedAt first last : ℕ) (state : admissibleState o = true)
      (nonempty : group.facts ≠ []) (bounded : group.facts.length ≤ 256 ∧ group.bytes layout ≤ maxGroupBytes)
      (small : group.oversizedRecord = false) (fits : o.Fits group.facts.length (group.bytes layout))
      (next : o.Next group.facts.length first last) :
      Offer o (.facts { facts := group.facts, bytes := group.bytes layout, submittedAt, firstRecord := first })
        { (o.noteSubmission submittedAt).charge ⟨1, group.facts.length, group.bytes layout⟩ with
          reservedThrough := last, lastAcceptedFact := group.facts.getLast?.map Fact.sequence }
  | operation (operation : OperationRecord) (bytes first last : ℕ) (admissible : operationAdmissible o operation = true)
      (charged : operation.compact.charge = some bytes) (fits : o.Fits 1 bytes) (next : o.Next 1 first last) :
      Offer o (.operation operation.compact bytes first)
        { (o.noteSubmission operation.time).charge ⟨1, 1, bytes⟩ with reservedThrough := last }
  | annotation (note : AnnotationRecord) (bytes assigned last : ℕ) (recording : o.cached.state = .recording)
      (valid : note.valid = true) (fits : o.Fits 1 bytes) (next : o.Next 1 assigned last) :
      Offer o (Message.annotation note bytes assigned)
        { (o.noteSubmission note.time).charge ⟨1, 1, bytes⟩ with reservedThrough := assigned }
  | referenceAccepted (r : ReferenceReservation) (accepted : OperationRecord) (assigned last : ℕ)
      (reserved : o.referenceCompletion = some r) (unsent : r.accepted = some accepted)
      (current : o.referenceGenerationCurrent r = true) (next : o.Next 1 assigned last) :
      Offer o (.referenceAccepted accepted r.acceptedBytes assigned)
        { o.noteSubmission accepted.time with
          reservedThrough := assigned, referenceCompletion := some { r with accepted := none } }
  | referenceCompletion (r : ReferenceReservation) (terminal : OperationRecord) (records first last : ℕ)
      (referenceCredit charged : Credit) (reserved : o.referenceCompletion = some r)
      (current : o.referenceGenerationCurrent r = true) (matching : completionMatches r terminal = true)
      (counted : records = 1 + if r.fact.isSome then 1 else 0)
      (reference : o.referenceCredit.delta ⟨0, completionRecords - records, 0⟩ = some referenceCredit)
      (rest : o.charged.delta ⟨0, completionRecords - records, 0⟩ = some charged)
      (next : o.Next records first last) :
      Offer o (.referenceCompletion r.fact r.capturedAt terminal.compact (completionBytes layout) first)
        { o.noteSubmission (max terminal.time r.capturedAt) with
          reservedThrough := last, referenceCompletion := none, referenceCredit, charged
          lastAcceptedFact := r.fact.map Fact.sequence <|> o.lastAcceptedFact }
  | gapSeal (gap : RecorderGap) (first last : ℕ) (fresh : o.gapScheduled = false) (failed : o.cached.state = .failed)
      (noted : o.cached.coverage = .gap) (valid : gap.valid = true) (next : o.Next 1 first last) :
      Offer o (.gapSeal gap first) { o with reservedThrough := last, gapScheduled := true }
  | clockAnchor (time first last : ℕ) (quiet : o.periodicPending = none) (unfinished : o.finishRequested = false)
      (state : o.cached.state = .idle ∨ o.cached.state = .recording) (next : o.Next 1 first last) :
      Offer o (.clockAnchor first)
        { o with reservedThrough := last, lastPeriodic := time, periodicPending := some first }
  | history (job following : ℕ) (live : List ℕ) :
      Offer o (.history job) { o with nextHistoryJob := following, liveHistoryJobs := live }
  | runs (job following : ℕ) (live : List ℕ) :
      Offer o (.runs job) { o with nextHistoryJob := following, liveHistoryJobs := live }

/-- A reservation of credit before anything is transferred. -/
inductive Reserve (o : RecorderWorker layout) : RecorderWorker layout → Prop
  | live (bytes generation : ℕ) (state : o.cached.state = .idle ∨ o.cached.state = .recording ∨ o.Exhausted)
      (none : o.liveActivationReservation = none ∧ o.pendingActivationGeneration = none) (fits : o.Fits 1 bytes) :
      Reserve o { o.charge ⟨1, 1, bytes⟩ with
        pendingActivationGeneration := some generation
        liveActivationReservation := some { generation, bytes } }.showOutstanding
  | group (token next : ℕ) (state : o.cached.state = .recording ∨ o.Exhausted)
      (fits : o.Fits factGroupCredit.records factGroupCredit.bytes) :
      Reserve o { o.charge factGroupCredit with
        nextFactReservation := next, reservedFactGroups := token :: o.reservedFactGroups }
  | reference (r : ReferenceReservation) (accepted : OperationRecord) (acceptedBytes : ℕ)
      (admissible : referenceAdmissible o accepted = true) (charged : accepted.compact.charge = some acceptedBytes)
      (unsent : r.accepted = some accepted.compact ∧ r.acceptedBytes = acceptedBytes)
      (fits : referenceFits o (operationCredit layout acceptedBytes) = true) :
      Reserve o { o.charge (operationCredit layout acceptedBytes) with
        referenceCredit := o.referenceCredit + operationCredit layout acceptedBytes, referenceCompletion := some r }

/-- Changes of the owner alone that take no credit. -/
inductive Local (o : RecorderWorker layout) : RecorderWorker layout → Prop
  | observed (workerClosed : Bool) :
      Local o { o.showOutstanding with cached := { o.showOutstanding.cached with workerClosed } }
  | configured (policy : RecordingPolicy) : Local o { o with selectedPolicy := policy, policyConfigured := true }
  | liveCancelled (reservation : LiveActivationReservation) (reserved : o.liveActivationReservation = some reservation) :
      Local o { o with
        charged := ⟨o.charged.groups - 1, o.charged.records - 1, o.charged.bytes - reservation.bytes⟩
        liveActivationReservation := none, pendingActivationGeneration := none }.showOutstanding
  | groupCancelled (token : ℕ) (charged : Credit) (reserved : token ∈ o.reservedFactGroups)
      (rest : o.charged.delta factGroupCredit = some charged) :
      Local o { o with reservedFactGroups := o.reservedFactGroups.erase token, charged }
  | referenceReleased (r : ReferenceReservation) (left : Option ReferenceReservation) (referenceCredit charged released : Credit)
      (reserved : o.referenceCompletion = some r)
      (split : r.unused layout = released + left.elim 0 (ReferenceReservation.unused layout))
      (reference : o.referenceCredit.delta released = some referenceCredit)
      (rest : o.charged.delta released = some charged) :
      Local o { o with referenceCompletion := left, referenceCredit, charged }
  | captured (r : ReferenceReservation) (fact : Fact) (time : ℕ) (reserved : o.referenceCompletion = some r)
      (empty : r.fact = none) (reference : fact.isReference = true) :
      Local o { o with referenceCompletion := some { r with fact := some fact, capturedAt := time } }
  | jobs (live pending : List ℕ) : Local o { o with liveHistoryJobs := live, pendingCancellations := pending }

/-- A receipt releases `total`, and `reference` of it as Reference credit. -/
structure Released (o : RecorderWorker layout) (receipt : Receipt) (total reference charged referenceCredit : Credit) :
    Prop where
  totalReleased : receipt.released = o.seenReleased + total
  referenceReleased : receipt.referenceReleased = o.seenReferenceReleased + reference
  taken : o.charged = total + charged
  ordinary : ∃ ordinary ordinaryCredit, total = reference + ordinary ∧ o.charged = o.referenceCredit + ordinaryCredit ∧
    ordinaryCredit.contains ordinary = true
  submitted : ∃ submitted, o.referenceCredit = o.unusedReference + submitted ∧ submitted.contains reference = true
  rest : o.referenceCredit = reference + referenceCredit

/-- A published receipt that is neither stale nor from the future. -/
structure Adoptable (o : RecorderWorker layout) (receipt : Receipt) (charged referenceCredit : Credit) : Prop where
  persisted : o.cached.persistedThroughSequence ≤ receipt.persisted
  reserved : receipt.persisted ≤ o.reservedThrough
  submitted : ∀ confirmed, receipt.confirmedSubmission = some confirmed →
    ∃ latest, o.lastOwnerSubmission = some latest ∧ confirmed ≤ latest
  current : earlier receipt.confirmedSubmission o.cached.confirmedSubmission = false
  released : ∃ total reference, o.Released receipt total reference charged referenceCredit

end RecorderWorker

/-- What a call or the worker is about to do, for premises about runs. -/
inductive Act
  | send (message : Message)
  | refuse (message : Message)
  | reserve
  | misuse
  /-- the owner fails the recorder -/
  | fail
  /-- the owner fails the recorder with a gap -/
  | gap
  | worker (move : WorkerMove)

/-- What waiting, polling and failing may do. -/
def Act.quiet : Act → Bool
  | .send (.clockAnchor _) => true
  | .refuse _ => true
  | .fail => true
  | .worker _ => true
  | _ => false

/-- Why the owner fails the recorder without a gap. -/
inductive Cause (s : System layout) : Prop
  | down (h : s.storage.finished = true ∨ s.storage.alive = false ∨ s.storage.phase.receiving = false)
  | full (h : fifoCapacity ≤ s.storage.queue.length)
  | exhausted (h : s.owner.Exhausted)
  | receipt (receipt : Receipt) (shown : s.storage.Shown receipt)
      (h : ∀ charged referenceCredit, ¬ s.owner.Adoptable receipt charged referenceCredit)
      (current : s.owner.cached.persistedThroughSequence ≤ receipt.persisted)

/-- One move under the premise `A`. -/
inductive Micro (A : System layout → Act → Prop) (s : System layout) : System layout → Prop
  | worker (move : WorkerMove) (granted : A s (.worker move)) :
      Micro A s { s with storage := s.storage.work move }
  | scheduled (schedule : Schedule) : Micro A s { s with schedule }
  | sent (message : Message) (o : RecorderWorker layout) (offer : s.owner.Offer message o)
      (granted : A s (.send message)) (receiving : s.storage.phase.receiving = true)
      (room : s.storage.queue.length < fifoCapacity) :
      Micro A s { s with owner := o, storage := { s.storage with queue := s.storage.queue ++ [message] } }
  | refused (message : Message) (o : RecorderWorker layout) (offer : s.owner.Offer message o)
      (granted : A s (.refuse message)) (receiving : s.storage.phase.receiving = true)
      (full : fifoCapacity ≤ s.storage.queue.length) :
      Micro A s { s with storage := { s.storage with refused := s.storage.refused ++ [message] } }
  | reserved (o : RecorderWorker layout) (h : s.owner.Reserve o) (granted : A s .reserve) :
      Micro A s { s with owner := o }
  | changed (o : RecorderWorker layout) (h : s.owner.Local o) : Micro A s { s with owner := o }
  | adopted (receipt : Receipt) (charged referenceCredit : Credit) (shown : s.storage.Shown receipt)
      (h : s.owner.Adoptable receipt charged referenceCredit) :
      Micro A s { s with owner := { s.owner with charged, referenceCredit }.adopt receipt }
  | failed (message : StorageError) (cause : Cause s ∨ A s .misuse) (granted : A s .fail) :
      Micro A s { s with owner := s.owner.failing message }
  | gapFailed (gap : RecorderGap) (fresh : s.owner.gapScheduled = false) (live : s.owner.cached.state ≠ .failed)
      (valid : gap.valid = true) (granted : A s .gap) :
      Micro A s { s with owner := (s.owner.noteGap gap).failing gap.reason }
  | marked (message : StorageError) (failed : s.owner.cached.state = .failed) :
      Micro A s { s with storage := s.storage.post (·.fail message) }
  | slots (active history runs : List ℕ) :
      Micro A s { s with storage := { s.storage with
        activeHistoryJobs := active, historyMailbox := history, runsMailbox := runs } }
  | panicked (h : ¬ s.owner.Sound) : Micro A s { s with panicked := true }

/-- Moves in turn. -/
abbrev Path (A : System layout → Act → Prop) : System layout → System layout → Prop := Relation.ReflTransGen (Micro A)

/-- No premise. -/
def Free (_ : System layout) (_ : Act) : Prop := True

/-- Nothing but what polling does. -/
def Quiet (_ : System layout) (act : Act) : Prop := act.quiet = true

/-- Polling and failing. -/
def Calm (_ : System layout) (act : Act) : Prop := act.quiet = true ∨ act = .misuse ∨ act = .gap

variable {A : System layout → Act → Prop} {s s' : System layout}

theorem Micro.mono {B : System layout → Act → Prop} (h : Micro A s s') (hAB : ∀ act, A s act → B s act) :
    Micro B s s' := by
  cases h with
  | worker move granted => exact .worker move (hAB _ granted)
  | scheduled schedule => exact .scheduled schedule
  | sent message o offer granted receiving room => exact .sent message o offer (hAB _ granted) receiving room
  | refused message o offer granted receiving full => exact .refused message o offer (hAB _ granted) receiving full
  | reserved o h granted => exact .reserved o h (hAB _ granted)
  | changed o h => exact .changed o h
  | adopted receipt charged referenceCredit shown h => exact .adopted receipt charged referenceCredit shown h
  | failed message cause granted => exact .failed message (cause.imp_right (hAB _)) (hAB _ granted)
  | gapFailed gap fresh live valid granted => exact .gapFailed gap fresh live valid (hAB _ granted)
  | marked message failed => exact .marked message failed
  | slots active history runs => exact .slots active history runs
  | panicked h => exact .panicked h

/-- A quiet path is a path under any premise that holds along it. -/
theorem Path.grant {B : System layout → Act → Prop} (h : Path A s s')
    (hAB : ∀ s' act, Path A s s' → A s' act → B s' act) : Path B s s' := by
  induction h with
  | refl => exact .refl
  | tail path step ih => exact ih.tail (step.mono fun act => hAB _ act path)

theorem Path.calm (h : Path Quiet s s') : Path Calm s s' := h.grant fun _ _ _ hact => .inl hact

/-- An invariant of every move is one of every path. -/
theorem Path.keeps {I : System layout → Prop} (hI : ∀ s s', Micro A s s' → I s → I s') (h : Path A s s') (hs : I s) :
    I s' := by
  induction h with
  | refl => exact hs
  | tail _ step ih => exact hI _ _ step ih

end LabRuntime.Recorder
