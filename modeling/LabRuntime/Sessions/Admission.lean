import LabRuntime.Lib.History
import LabRuntime.Lib.Ledger
import LabRuntime.Sessions.Invariant

/-! At most one admission of every mutation, over any sequence of store operations. The scopes
with their high waters are a ledger: an operation forgets scopes, issues the counter's next name
or accepts the next number of a live scope, and does nothing else to it. -/

namespace LabRuntime.Sessions

variable {C : Type} [Candidate C]

inductive SessionOp (C : Type)
  | openScope (old : Option String) (connection now : ℕ)
  | detach (connection now : ℕ)
  | admitMutation (scopeId : String) (seq : ℕ) (payload : Mutation C) (now : ℕ)
  | admitWithGate (scopeId : String) (seq : ℕ) (payload : Mutation C) (now : ℕ) (gate : Bool)
  | complete (scopeId : String) (seq : ℕ) (state : OperationState) (now : ℕ)
  | expire (now : ℕ)

inductive SessionReply
  | opened (result : Except SessionError OpenScope)
  | admission (answer : Admission)
  | completed (result : Except SessionError Unit)
  | done

/-- A gate with a fixed answer that notes being asked. -/
def asking (gate : Bool) : StateM (List Bool) Bool := do
  modify (· ++ [gate])
  return gate

namespace SessionStore

/-- An admission with its gate's answers. -/
def call (s : SessionStore C) (scopeId : String) (seq : ℕ) (payload : Mutation C) (now : ℕ) (gate : Bool) :
    (Admission × SessionStore C) × List Bool :=
  (s.admitWithGate scopeId seq payload now (asking gate)).run []

def apply (s : SessionStore C) : SessionOp C → SessionReply × SessionStore C
  | .openScope old connection now =>
    let (result, s) := s.openScope old connection now
    (.opened result, s)
  | .detach connection now => (.done, s.detach connection now)
  | .admitMutation scopeId seq payload now =>
    let (answer, s) := s.admitMutation scopeId seq payload now
    (.admission answer, s)
  | .admitWithGate scopeId seq payload now gate =>
    let (answer, s) := (s.call scopeId seq payload now gate).1
    (.admission answer, s)
  | .complete scopeId seq state now =>
    let (result, s) := s.complete scopeId seq state now
    (.completed result, s)
  | .expire now => (.done, s.expire now)

def step (s : SessionStore C) (op : SessionOp C) : SessionStore C := (s.apply op).2

def run (s : SessionStore C) (ops : List (SessionOp C)) : SessionStore C := History.after step s ops

/-- What an operation's answer gives out: a new scope's name or an accepted number. -/
def entry (s : SessionStore C) : SessionOp C → Ledger.Entry String
  | .openScope none connection now =>
    match (s.openScope none connection now).1 with
    | .ok opened => .issued opened.scope
    | .error _ => .quiet
  | .admitMutation scopeId seq payload now =>
    if (s.admitMutation scopeId seq payload now).1 = .accepted then .accepted scopeId seq else .quiet
  | .admitWithGate scopeId seq payload now gate =>
    if (s.call scopeId seq payload now gate).1.1 = .accepted then .accepted scopeId seq else .quiet
  | _ => .quiet

def entries (s : SessionStore C) : List (SessionOp C) → List (Ledger.Entry String)
  | [] => []
  | op :: ops => s.entry op :: (s.step op).entries ops

/-- The scope names issued over a run, in order. -/
def issued (s : SessionStore C) (ops : List (SessionOp C)) : List String := Ledger.issued (s.entries ops)

/-- The scopes and numbers answered `accepted` over a run, in order. -/
def accepted (s : SessionStore C) (ops : List (SessionOp C)) : List (String × ℕ) :=
  Ledger.accepted (s.entries ops)

/-- The numbers answered `accepted` on one scope over a run, in order. -/
def acceptedOn (s : SessionStore C) (ops : List (SessionOp C)) (scopeId : String) : List ℕ :=
  Ledger.numbers (s.entries ops) scopeId

theorem entries_snoc (s : SessionStore C) (ops : List (SessionOp C)) (op : SessionOp C) :
    s.entries (ops ++ [op]) = s.entries ops ++ [(s.run ops).entry op] := by
  induction ops generalizing s with
  | nil => rfl
  | cons op' ops ih => simp [entries, ih, run]

/-! ### One admission -/

/-- The gate is asked exactly when nothing refuses before it, in any monad it may live in. -/
theorem admitWithGate_eq {m : Type → Type} [Monad m] (s : SessionStore C) (scopeId : String) (seq : ℕ)
    (payload : Mutation C) (now : ℕ) (gate : m Bool) :
    s.admitWithGate scopeId seq payload now gate =
      match (s.expire now).refusal scopeId seq payload.normalized with
      | some answer => pure (answer, s.expire now)
      | none => gate >>= fun ok =>
        if ok then pure (.accepted, (s.expire now).reserve scopeId seq payload.normalized now)
        else pure (.busy, s.expire now) := rfl

theorem call_refused {s : SessionStore C} {scopeId : String} {seq : ℕ} {payload : Mutation C} {now : ℕ}
    {answer : Admission} (h : (s.expire now).refusal scopeId seq payload.normalized = some answer)
    (gate : Bool) : s.call scopeId seq payload now gate = ((answer, s.expire now), []) := by
  rw [call, admitWithGate_eq, h]
  rfl

theorem call_asked {s : SessionStore C} {scopeId : String} {seq : ℕ} {payload : Mutation C} {now : ℕ}
    (h : (s.expire now).refusal scopeId seq payload.normalized = none) (gate : Bool) :
    s.call scopeId seq payload now gate =
      (if gate then (.accepted, (s.expire now).reserve scopeId seq payload.normalized now)
        else (.busy, s.expire now), [gate]) := by
  rw [call, admitWithGate_eq, h]
  cases gate <;> rfl

theorem admit_eq_call (s : SessionStore C) (scopeId : String) (seq : ℕ) (payload : Mutation C) (now : ℕ) :
    s.admitMutation scopeId seq payload now = (s.call scopeId seq payload now true).1 := by
  rw [admitMutation, admitWithGate_eq]
  cases h : (s.expire now).refusal scopeId seq payload.normalized with
  | some answer =>
    rw [call_refused h]
    rfl
  | none =>
    rw [call_asked h]
    rfl

theorem refusal_ne_accepted {s : SessionStore C} {scopeId : String} {seq : ℕ} {payload : Mutation C}
    {answer : Admission} (h : s.refusal scopeId seq payload = some answer) : answer ≠ .accepted := by
  rintro rfl
  unfold refusal at h
  cases hid : s.scopes.get scopeId with
  | none => rw [hid] at h; cases h
  | some scope =>
    rw [hid] at h
    simp only [refusalIn] at h
    cases hfind : scope.records.find? (·.seq == seq) with
    | some old =>
      rw [hfind] at h
      simp only at h
      split_ifs at h <;> cases h
    | none =>
      rw [hfind] at h
      simp only at h
      split_ifs at h <;> cases h

/-- What the answers of an admission mean. -/
structure Honest (s : SessionStore C) (scopeId : String) (seq : ℕ) (payload : Mutation C) (now : ℕ)
    (gate : Bool) : Prop where
  asked : (s.call scopeId seq payload now gate).2 = [] ∨ (s.call scopeId seq payload now gate).2 = [gate]
  accepted : (s.call scopeId seq payload now gate).1.1 = .accepted ↔
    (s.call scopeId seq payload now gate).2 = [true]
  refused : (s.call scopeId seq payload now gate).1.1 ≠ .accepted →
    (s.call scopeId seq payload now gate).1.2 = s.expire now
  retained : ∀ scope, (s.expire now).scopes.get scopeId = some scope → ∀ r ∈ scope.records, r.seq = seq →
    (s.call scopeId seq payload now gate).1.1 =
      if r.payload == payload.normalized then .known r.state else .conflict
  evicted : ∀ scope, (s.expire now).scopes.get scopeId = some scope → (∀ r ∈ scope.records, r.seq ≠ seq) →
    seq ≤ scope.highWater → (s.call scopeId seq payload now gate).1.1 = .unknown
  ahead : ∀ scope, (s.expire now).scopes.get scopeId = some scope → scope.highWater + 1 < seq →
    (s.call scopeId seq payload now gate).1.1 = .gap

theorem Inv.honest {s : SessionStore C} (hs : s.Inv) (scopeId : String) (seq : ℕ) (payload : Mutation C)
    (now : ℕ) (gate : Bool) : s.Honest scopeId seq payload now gate := by
  have ho := (expire_inv hs now).ordered
  have hlive : ∀ scope, (s.expire now).scopes.get scopeId = some scope →
      (s.expire now).refusal scopeId seq payload.normalized =
        (s.expire now).refusalIn scope seq payload.normalized := fun scope hid => by
    rw [refusal, hid]
  have hfind : ∀ {scope : Scope C}, (∀ r ∈ scope.records, r.seq ≠ seq) →
      scope.records.find? (·.seq == seq) = none := fun h =>
    List.find?_eq_none.2 fun r hr => by simpa using h r hr
  refine ⟨?_, ?_, fun h => ?_, fun scope hid r hr hseq => ?_, fun scope hid hgone hle => ?_,
    fun scope hid hlt => ?_⟩
  · cases h : (s.expire now).refusal scopeId seq payload.normalized with
    | some answer => exact .inl (by rw [call_refused h])
    | none => exact .inr (by rw [call_asked h])
  · cases h : (s.expire now).refusal scopeId seq payload.normalized with
    | some answer =>
      rw [call_refused h]
      simp [refusal_ne_accepted h]
    | none =>
      rw [call_asked h]
      cases gate <;> simp
  · cases hr : (s.expire now).refusal scopeId seq payload.normalized with
    | some answer => rw [call_refused hr]
    | none =>
      rw [call_asked hr] at h ⊢
      cases gate with
      | false => rfl
      | true => exact absurd rfl h
  · have hrefusal := hlive scope hid
    obtain ⟨old, hold⟩ : ∃ old, scope.records.find? (·.seq == seq) = some old :=
      Option.isSome_iff_exists.1 (List.find?_isSome.2 ⟨r, hr, by simpa using hseq⟩)
    have holdseq : old.seq = seq := by simpa using List.find?_some hold
    obtain rfl : old = r := (ho _ _ hid).eq_of_seq (List.mem_of_find?_eq_some hold) hr (holdseq.trans hseq.symm)
    simp only [refusalIn, hold] at hrefusal
    split_ifs at hrefusal ⊢ with heq
    · rw [call_refused hrefusal]
    · rw [call_refused hrefusal]
  · have hrefusal := hlive scope hid
    simp only [refusalIn, hfind hgone, hle, if_true] at hrefusal
    rw [call_refused hrefusal]
  · have hrefusal := hlive scope hid
    have hgone : ∀ r ∈ scope.records, r.seq ≠ seq := fun r hr heq => by
      have hle := (ho _ _ hid).bounded r hr
      omega
    have hnext : checkedAdd scope.highWater 1 ≠ some seq := fun h => by
      have heq := (checkedAdd_eq_some.1 h).1
      omega
    have hhigh : ¬ seq ≤ scope.highWater := by omega
    simp only [refusalIn, hfind hgone, hhigh, if_false, hnext, ne_eq, not_false_eq_true, if_true] at hrefusal
    rw [call_refused hrefusal]

/-! ### The ledger of a run -/

def ledger (s : SessionStore C) : Ledger String :=
  ⟨s.nextScope, fun scopeId => (s.scopes.get scopeId).map Scope.highWater⟩

omit [Candidate C] in
theorem ledger_live {s : SessionStore C} {scopeId : String} {n : ℕ} :
    s.ledger.live scopeId = some n ↔ ∃ scope, s.scopes.get scopeId = some scope ∧ scope.highWater = n :=
  Option.map_eq_some_iff

omit [Candidate C] in
theorem Prunes.live {s' s : SessionStore C} (h : Prunes s' s) (scopeId : String) (n : ℕ)
    (hlive : s'.ledger.live scopeId = some n) : s.ledger.live scopeId = some n := by
  obtain ⟨scope', hid', rfl⟩ := ledger_live.1 hlive
  obtain ⟨scope, hid, hshrinks⟩ := h.scopes scopeId scope' hid'
  exact ledger_live.2 ⟨scope, hid, hshrinks.1.symm⟩

omit [Candidate C] in
theorem Prunes.quiet {s' s : SessionStore C} (h : Prunes s' s) (name : ℕ → String) :
    Ledger.Step name s.ledger .quiet s'.ledger := .quiet h.nextScope h.live

theorem call_step (s : SessionStore C) (scopeId : String) (seq : ℕ) (payload : Mutation C)
    (now : ℕ) (gate : Bool) :
    Ledger.Step (scopeName s.bootId) s.ledger
      (if (s.call scopeId seq payload now gate).1.1 = .accepted then .accepted scopeId seq else .quiet)
      (s.call scopeId seq payload now gate).1.2.ledger := by
  cases h : (s.expire now).refusal scopeId seq payload.normalized with
  | some answer =>
    rw [call_refused h, if_neg (refusal_ne_accepted h)]
    exact (s.prunes_expire now).quiet _
  | none =>
    rw [call_asked h]
    cases gate with
    | false => exact (s.prunes_expire now).quiet _
    | true =>
      obtain ⟨scope, hid, -, rfl, -⟩ := refusal_eq_none h
      have hprunes := s.prunes_expire now
      simp only [if_true, reserve, hid]
      refine .accept hprunes.nextScope (hprunes.live _ _ (ledger_live.2 ⟨scope, hid, rfl⟩))
        (ledger_live.2 ⟨_, OrderedMap.get_insert_self _, rfl⟩) fun id' k hne hlive => ?_
      obtain ⟨scope', hid', rfl⟩ := ledger_live.1 hlive
      rw [OrderedMap.get_insert_of_ne _ hne] at hid'
      exact hprunes.live _ _ (ledger_live.2 ⟨scope', hid', rfl⟩)

theorem openScope_step (s : SessionStore C) (old : Option String) (connection now : ℕ) :
    Ledger.Step (scopeName s.bootId) s.ledger (s.entry (.openScope old connection now))
      (s.openScope old connection now).2.ledger := by
  have hprunes := s.prunes_expire now
  cases old with
  | some old => exact ((prunes_resume _ old connection now).trans hprunes).quiet _
  | none =>
    obtain ⟨error, heq⟩ | ⟨-, -, heq⟩ := (s.expire now).issue_cases connection now
    · simp only [entry, openScope, heq]
      exact hprunes.quiet _
    · simp only [entry, openScope, heq]
      rw [hprunes.bootId, hprunes.nextScope]
      refine .issue rfl (ledger_live.2 ⟨_, OrderedMap.get_insert_self _, rfl⟩) fun id' k hne hlive => ?_
      obtain ⟨scope', hid', rfl⟩ := ledger_live.1 hlive
      have hold := ((s.expire now).scopes.get_insert_of_ne hne).symm.trans hid'
      exact hprunes.live _ _ (ledger_live.2 ⟨scope', hold, rfl⟩)

omit [Candidate C] in
theorem complete_quiet (s : SessionStore C) (id : String) (seq : ℕ) (state : OperationState) (now : ℕ) :
    (s.complete id seq state now).2.bootId = s.bootId ∧
      Ledger.Step (scopeName s.bootId) s.ledger .quiet (s.complete id seq state now).2.ledger := by
  obtain heq | ⟨scope, records, -, hid, -, heq⟩ := s.complete_cases id seq state now
  · rw [heq]
    exact ⟨rfl, (Prunes.refl s).quiet _⟩
  · rw [heq]
    have hprunes := prunes_enforceTerminalBounds
      ({ s with scopes := s.scopes.insert id { scope with records } } : SessionStore C)
    refine ⟨hprunes.bootId, .quiet hprunes.nextScope fun id' n hlive => ?_⟩
    obtain ⟨scope', hid', rfl⟩ := ledger_live.1 (hprunes.live id' n hlive)
    obtain ⟨rfl, rfl⟩ | hid' := s.scopes.get_insert_cases hid'
    · exact ledger_live.2 ⟨scope, hid, rfl⟩
    · exact ledger_live.2 ⟨scope', hid', rfl⟩

/-- Every operation keeps the invariant and makes one ledger step. -/
theorem step_inv {s : SessionStore C} (hs : s.Inv) (op : SessionOp C) : (s.step op).Inv := by
  have hcall : ∀ id seq payload now gate, (s.call id seq payload now gate).1.2.Inv :=
    fun id seq payload now gate => by
      have hexpire := expire_inv hs now
      cases h : (s.expire now).refusal id seq payload.normalized with
      | some answer =>
        rw [call_refused h]
        exact hexpire
      | none =>
        rw [call_asked h]
        cases gate with
        | false => exact hexpire
        | true => exact reserve_inv hexpire h now
  cases op with
  | openScope old connection now => exact openScope_inv hs old connection now
  | detach connection now => exact detach_inv hs connection now
  | admitMutation id seq payload now =>
    simp only [step, apply, admit_eq_call]
    exact hcall id seq payload now true
  | admitWithGate id seq payload now gate => exact hcall id seq payload now gate
  | complete id seq state now => exact complete_inv hs id seq state now
  | expire now => exact expire_inv hs now

theorem step_ledger (s : SessionStore C) (op : SessionOp C) :
    Ledger.Step (scopeName s.bootId) s.ledger (s.entry op) (s.step op).ledger := by
  cases op with
  | openScope old connection now => exact s.openScope_step old connection now
  | detach connection now => exact (s.prunes_detach connection now).quiet _
  | admitMutation id seq payload now =>
    simp only [entry, step, apply, admit_eq_call]
    exact s.call_step id seq payload now true
  | admitWithGate id seq payload now gate => exact s.call_step id seq payload now gate
  | complete id seq state now => exact (s.complete_quiet id seq state now).2
  | expire now => exact (s.prunes_expire now).quiet _

theorem step_bootId (s : SessionStore C) (op : SessionOp C) : (s.step op).bootId = s.bootId := by
  have hcall : ∀ id seq payload now gate, (s.call id seq payload now gate).1.2.bootId = s.bootId :=
    fun id seq payload now gate => by
      have hboot := (s.prunes_expire now).bootId
      cases h : (s.expire now).refusal id seq payload.normalized with
      | some answer =>
        rw [call_refused h]
        exact hboot
      | none =>
        rw [call_asked h]
        obtain ⟨scope, hid, -⟩ := refusal_eq_none h
        cases gate with
        | false => exact hboot
        | true => simpa only [reserve, hid, if_true] using hboot
  cases op with
  | openScope old connection now =>
    have hboot := (s.prunes_expire now).bootId
    cases old with
    | some old => exact (prunes_resume _ old connection now).bootId.trans hboot
    | none =>
      obtain ⟨error, heq⟩ | ⟨-, -, heq⟩ := (s.expire now).issue_cases connection now
      · simp only [step, apply, openScope, heq]
        exact hboot
      · simp only [step, apply, openScope, heq]
        exact hboot
  | detach connection now => rfl
  | admitMutation id seq payload now =>
    simp only [step, apply, admit_eq_call]
    exact hcall id seq payload now true
  | admitWithGate id seq payload now gate => exact hcall id seq payload now gate
  | complete id seq state now => exact (complete_quiet s id seq state now).1
  | expire now => rfl

theorem run_inv {s : SessionStore C} (hs : s.Inv) (ops : List (SessionOp C)) : (s.run ops).Inv := by
  have hstable : History.Stable SessionStore.step (fun s : SessionStore C => s.Inv) := fun _ op h => step_inv h op
  exact hstable.after hs ops

theorem run_ledger (s : SessionStore C) (ops : List (SessionOp C)) :
    Ledger.Run (scopeName s.bootId) s.ledger (s.entries ops) (s.run ops).ledger ∧
      (s.run ops).bootId = s.bootId := by
  induction ops using List.reverseRecOn with
  | nil => exact ⟨.nil, rfl⟩
  | append_singleton ops op ih =>
    have hrun : s.run (ops ++ [op]) = (s.run ops).step op := by simp [run]
    rw [entries_snoc, hrun, step_bootId]
    have hstep := (s.run ops).step_ledger op
    rw [ih.2] at hstep
    exact ⟨.snoc ih.1 hstep, ih.2⟩

/-- No number is accepted twice, no scope name is issued twice, and every answer is honest. -/
theorem mutation_admitted_at_most_once {bootId : String} {s : SessionStore C} (h : new bootId = .ok s)
    (ops : List (SessionOp C)) :
    (s.accepted ops).Nodup ∧
      (∀ scopeId, ∃ n, s.acceptedOn ops scopeId = List.range' 1 n ∧
        ∀ scope, (s.run ops).scopes.get scopeId = some scope → scope.highWater = n) ∧
      (s.issued ops).Nodup ∧ (s.run ops).Bounded ∧
      ∀ scopeId seq payload now gate, (s.run ops).Honest scopeId seq payload now gate ∧
        (s.run ops).admitMutation scopeId seq payload now = ((s.run ops).call scopeId seq payload now true).1 := by
  have hlive : ∀ scopeId, s.ledger.live scopeId = none := by
    unfold new at h
    split_ifs at h
    obtain rfl := Except.ok.inj h
    exact fun _ => rfl
  have hledger := (s.run_ledger ops).1.inv (scopeName_injective _) hlive
  have hinv := run_inv (new_inv h) ops
  refine ⟨hledger.accepted_nodup, fun scopeId => ?_, hledger.nodup, hinv.bounded,
    fun scopeId seq payload now gate => ⟨hinv.honest scopeId seq payload now gate, admit_eq_call ..⟩⟩
  cases hid : (s.run ops).scopes.get scopeId with
  | none =>
    obtain ⟨n, hn⟩ := hledger.consecutive scopeId
    exact ⟨n, hn, fun _ h => (by cases h)⟩
  | some scope =>
    refine ⟨scope.highWater, (hledger.numbered _ _ (ledger_live.2 ⟨scope, hid, rfl⟩)).1, fun scope' h => ?_⟩
    rw [Option.some.inj h]

instance : Candidate (List UInt8) := ⟨id⟩

def bootStore : SessionStore (List UInt8) := ⟨"00112233445566778899aabbccddeeff", 1, OrderedMap.empty, 0⟩

/-- A reload that is retried after its outcome, then with another payload, then after its gap. -/
def retries : List (SessionOp (List UInt8)) :=
  let scopeId := "00112233445566778899aabbccddeeff:1"
  [.openScope none 1 0, .admitMutation scopeId 1 .reloadConfiguration 0, .complete scopeId 1 (.completed "{}") 1,
    .admitMutation scopeId 1 .reloadConfiguration 2, .admitMutation scopeId 1 .shutdown 3,
    .admitWithGate scopeId 2 .shutdown 4 false, .admitWithGate scopeId 2 .shutdown 5 true]

theorem mutation_admitted_at_most_once_retries :
    bootStore.accepted retries =
        [("00112233445566778899aabbccddeeff:1", 1), ("00112233445566778899aabbccddeeff:1", 2)] ∧
      (bootStore.accepted retries).Nodup ∧ (bootStore.run retries).Bounded := by
  have hnew : new "00112233445566778899aabbccddeeff" = .ok bootStore := rfl
  have h := mutation_admitted_at_most_once hnew retries
  exact ⟨by decide +kernel, h.1, h.2.2.2.1⟩

end SessionStore

end LabRuntime.Sessions
