import LabRuntime.Transport.Accounting

/-! What a history of calls says about the wire: the bytes the adapter accepted, grouped into
transmissions, and which of them a later response or recovery has settled. -/

namespace LabRuntime

namespace WireEvent

/-- The request bytes an adapter accepted. -/
def accepted : WireEvent → List UInt8
  | .write offer (.ok n) => offer.bytes.take n
  | _ => []

/-- The transaction of a write that accepted at least one byte. -/
def carried : WireEvent → Option ℕ
  | .write offer (.ok (_ + 1)) => some offer.id
  | _ => none

/-- Whether a write offers the request of this transaction. -/
def offers (id : ℕ) : WireEvent → Bool
  | .write offer _ => offer.id == id
  | _ => false

/-- The response bytes read for a transaction. -/
def answered (id : ℕ) : WireEvent → ℕ
  | .read i _ (.ok n) _ => if i = id then n else 0
  | _ => 0

/-- The answers after which the byte boundary is unknown. -/
def faulty : WireEvent → Bool
  | .write _ (.error _) => true
  | .write offer (.ok n) => decide (offer.bytes.length < n)
  | .read _ _ (.error _) _ => true
  | .read _ length (.ok n) _ => decide (length ≤ n)
  | .authorize _ .started (.ok (some _)) => false
  | .authorize _ .started _ => true
  | _ => false

theorem offers_of_carried {e : WireEvent} {id : ℕ} (h : e.carried = some id) : e.offers id = true := by
  unfold carried at h
  split at h
  · obtain rfl := Option.some.inj h
    simp [offers]
  · simp at h

end WireEvent

/-- One more call, with the newest transmission first: a first byte starts one, any other extends it. -/
def transmit (sent : List (ℕ × List UInt8)) : WireEvent → List (ℕ × List UInt8)
  | .write offer (.ok (n + 1)) =>
    if offer.offset = 0 then (offer.id, offer.bytes.take (n + 1)) :: sent
    else match sent with
      | [] => [(offer.id, offer.bytes.take (n + 1))]
      | (id, bytes) :: rest => (id, bytes ++ offer.bytes.take (n + 1)) :: rest
  | _ => sent

/-- The transmissions of a history, the newest first. -/
def transmissions (wire : List WireEvent) : List (ℕ × List UInt8) := wire.foldl transmit []

/-- How often the request of a transaction was put on the wire. -/
def transmitted (wire : List WireEvent) (id : ℕ) : ℕ := ((transmissions wire).map Prod.fst).count id

def received (id : ℕ) (wire : List WireEvent) : ℕ := (wire.map (WireEvent.answered id)).sum

/-- The adapter has reported a clean boundary. -/
def Recovered (wire : List WireEvent) : Prop := WireEvent.recover (.ok .complete) ∈ wire

/-- A transaction that put bytes on the wire before `after` has its exact response or was recovered from. -/
def Settled (admitted : List Transaction) (e : WireEvent) (after : List WireEvent) : Prop :=
  ∀ id, e.carried = some id → Recovered after ∨ ∃ t ∈ admitted, t.id = id ∧ received id after = t.expectedResponse

/-- No transaction is partly written or waits for its response. -/
def Clear (admitted : List Transaction) (wire : List WireEvent) : Prop :=
  History.Onward (Settled admitted) wire

/-- Every byte of this transaction that was put on the wire was recovered from. -/
def Withdrawn (id : ℕ) (wire : List WireEvent) : Prop :=
  History.Onward (fun e after => e.carried = some id → Recovered after) wire

def PollRecord.offers (p : PollRecord) (id : ℕ) : Bool := p.calls.any (·.offers id)

/-- When the request of a transaction was first offered. -/
def firstOffered (polls : List PollRecord) (id : ℕ) : Option ℕ :=
  (polls.find? (·.offers id)).map PollRecord.time

def wireOf (polls : List PollRecord) : List WireEvent := polls.flatMap PollRecord.calls

def OwnedState.partlySent : OwnedState → Bool
  | .active a => decide (0 < a.writeOffset)
  | _ => false

def OwnedState.expired (now : ℕ) : OwnedState → Bool
  | .active a => decide (a.executionDeadline ≤ now)
  | _ => false

/-! ### Histories that grow -/

variable {wire calls : List WireEvent} {id : ℕ} {admitted more : List Transaction} {polls : List PollRecord}

@[simp] theorem received_append (wire calls : List WireEvent) :
    received id (wire ++ calls) = received id wire + received id calls := by
  simp [received]

theorem Recovered.append (h : Recovered wire) (calls : List WireEvent) : Recovered (wire ++ calls) :=
  List.mem_append_left _ h

@[simp] theorem wireOf_snoc (p : PollRecord) : wireOf (polls ++ [p]) = wireOf polls ++ p.calls := by
  simp [wireOf]

theorem Clear.admission (h : Clear admitted wire) (more : List Transaction) : Clear (admitted ++ more) wire := by
  refine h.mono fun e after hs id hid => ?_
  obtain hr | ⟨t, ht, hrest⟩ := hs id hid
  · exact .inl hr
  · exact .inr ⟨t, List.mem_append_left _ ht, hrest⟩

theorem Clear.append (h : Clear admitted wire) (hcarried : ∀ e ∈ calls, e.carried = none)
    (hreceived : ∀ id, received id calls = 0) : Clear admitted (wire ++ calls) := by
  refine History.onward_append.2 ⟨h.mono fun e after hs id he => ?_,
    History.onward_of_forall fun e he after id hid => by simp [hcarried e he] at hid⟩
  obtain hr | ⟨t, ht, heq, hrec⟩ := hs id he
  · exact .inl (hr.append _)
  · exact .inr ⟨t, ht, heq, by rw [received_append, hreceived, hrec, Nat.add_zero]⟩

/-- A clean boundary settles everything before it. -/
theorem clear_recovered : Clear admitted (wire ++ [.recover (.ok .complete)]) := by
  refine History.onward_append.2 ⟨?_, ?_⟩
  · intro pre e post _ id _
    exact .inl (by simp [Recovered])
  · refine History.onward_of_forall ?_
    rintro e he post id hid
    rw [List.mem_singleton] at he
    subst he
    simp [WireEvent.carried] at hid

theorem withdrawn_recovered : Withdrawn id (wire ++ [.recover (.ok .complete)]) := by
  refine History.onward_append.2 ⟨?_, ?_⟩
  · intro pre e post _ _
    simp [Recovered]
  · refine History.onward_of_forall ?_
    rintro e he post hid
    rw [List.mem_singleton] at he
    subst he
    simp [WireEvent.carried] at hid

theorem Withdrawn.append (h : Withdrawn id wire) (hcalls : ∀ e ∈ calls, e.carried ≠ some id) :
    Withdrawn id (wire ++ calls) := by
  refine History.onward_append.2 ⟨h.mono fun e after hr hid => (hr hid).append calls, ?_⟩
  exact History.onward_of_forall fun e he post hid => absurd hid (hcalls e he)

theorem withdrawn_of_unoffered (h : ∀ e ∈ wire, e.carried ≠ some id) : Withdrawn id wire :=
  History.onward_of_forall fun e he _ hid => absurd hid (h e he)

/-! ### Transmissions -/

theorem transmissions_append (wire calls : List WireEvent) :
    transmissions (wire ++ calls) = calls.foldl transmit (transmissions wire) := List.foldl_append

theorem transmit_quiet {e : WireEvent} (h : e.carried = none) (sent : List (ℕ × List UInt8)) :
    transmit sent e = sent := by
  unfold transmit
  split
  · simp [WireEvent.carried] at h
  · rfl

theorem transmissions_quiet (h : ∀ e ∈ calls, e.carried = none) :
    transmissions (wire ++ calls) = transmissions wire := by
  rw [transmissions_append]
  generalize transmissions wire = sent
  induction calls generalizing sent with
  | nil => rfl
  | cons e calls ih =>
    rw [List.foldl_cons, transmit_quiet (h e (by simp))]
    exact ih (fun e he => h e (List.mem_cons_of_mem _ he)) sent

/-- The accepted bytes are the transmissions, one after the other. -/
theorem accepted_transmissions (wire : List WireEvent) :
    wire.flatMap WireEvent.accepted = (transmissions wire).reverse.flatMap Prod.snd := by
  induction wire using List.reverseRecOn with
  | nil => rfl
  | append_singleton wire e ih =>
    rw [List.flatMap_append, ih, transmissions_append, List.foldl_cons, List.foldl_nil, List.flatMap_singleton]
    generalize transmissions wire = sent
    cases hc : e.carried with
    | none =>
      have haccepted : e.accepted = [] := by
        unfold WireEvent.accepted
        split
        · rename_i offer n
          cases n with
          | zero => rfl
          | succ n => simp [WireEvent.carried] at hc
        · rfl
      rw [transmit_quiet hc, haccepted, List.append_nil]
    | some id =>
      unfold WireEvent.carried at hc
      split at hc
      · rename_i offer n
        unfold transmit WireEvent.accepted
        dsimp only
        split_ifs with h0
        · simp
        · cases sent with
          | nil => simp
          | cons x rest => simp
      · simp at hc

end LabRuntime
