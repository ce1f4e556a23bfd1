import LabRuntime.Sessions.Retention

/-! What the store knows of the work that is still owed: it forgets outcomes and idle scopes, but a number that it accepted
stays pending until it is completed. -/

namespace LabRuntime.Sessions.SessionStore

variable {C : Type} {s s' s'' : SessionStore C} {id id' : String} {seq seq' : ℕ} {state state' : OperationState}

/-- A retained number and its state. -/
def Knows (s : SessionStore C) (id : String) (seq : ℕ) (state : OperationState) : Prop :=
  ∃ scope, s.scopes.get id = some scope ∧ ∃ r ∈ scope.records, r.seq = seq ∧ r.state = state

theorem Inv.status (hs : s.Inv) : s.status id seq = .known state ↔ s.Knows id seq state := status_eq_known hs.ordered

theorem Prunes.knows (h : Prunes s' s) (hknows : s'.Knows id seq state) : s.Knows id seq state := by
  obtain ⟨scope', hid', r, hr, hseq, hstate⟩ := hknows
  obtain ⟨scope, hid, hshrinks⟩ := h.scopes id scope' hid'
  exact ⟨scope, hid, r, hshrinks.2.subset hr, hseq, hstate⟩

/-! ### Nothing pending is dropped -/

def KeepsPending (s s' : SessionStore C) : Prop :=
  ∀ id scope, s.scopes.get id = some scope → ∀ r ∈ scope.records, r.isTerminal = false →
    ∃ scope', s'.scopes.get id = some scope' ∧ r ∈ scope'.records

theorem KeepsPending.refl (s : SessionStore C) : KeepsPending s s := fun _ scope hid _ hr _ => ⟨scope, hid, hr⟩

theorem KeepsPending.trans (h : KeepsPending s s') (h' : KeepsPending s' s'') : KeepsPending s s'' := by
  intro id scope hid r hr hpending
  obtain ⟨scope', hid', hr'⟩ := h id scope hid r hr hpending
  exact h' id scope' hid' r hr' hpending

theorem KeepsPending.of_scopes (h : KeepsPending s s') (hscopes : s''.scopes = s'.scopes) : KeepsPending s s'' := by
  intro id scope hid
  rw [hscopes]
  exact h id scope hid

theorem KeepsPending.knows (h : KeepsPending s s') (hknows : s.Knows id seq .accepted) : s'.Knows id seq .accepted := by
  obtain ⟨scope, hid, r, hr, hseq, hstate⟩ := hknows
  obtain ⟨scope', hid', hr'⟩ := h id scope hid r hr (by rw [Record.isTerminal, hstate]; rfl)
  exact ⟨scope', hid', r, hr', hseq, hstate⟩

theorem mapValues_pending (s : SessionStore C) {g : Scope C → Scope C}
    (h : ∀ scope, ∀ r ∈ scope.records, r.isTerminal = false → r ∈ (g scope).records) :
    KeepsPending s { s with scopes := s.scopes.mapValues g } := by
  intro id scope hid r hr hpending
  refine ⟨g scope, ?_, h scope r hr hpending⟩
  rw [OrderedMap.get_mapValues, hid]
  rfl

theorem expire_pending (hs : s.Inv) (now : ℕ) : KeepsPending s (s.expire now) := by
  intro id scope hid r hr hpending
  have hkept : r ∈ scope.records.filter (unexpired now) := by
    refine List.mem_filter.2 ⟨hr, ?_⟩
    have htimed := (hs.ordered id scope hid).timed r hr
    rw [hpending, Option.isSome_eq_false_iff, Option.isNone_iff_eq_none] at htimed
    rw [unexpired, htimed]
  refine ⟨{ scope with records := scope.records.filter (unexpired now) }, ?_, hkept⟩
  rw [get_expire, hid, Option.map_some, Option.filter_some, if_pos]
  have hany : (scope.records.filter (unexpired now)).any Record.pending = true :=
    List.any_eq_true.2 ⟨r, hkept, by rw [Record.pending, ← Record.isTerminal, hpending]; rfl⟩
  simp [retained, hany]

theorem detach_pending (s : SessionStore C) (connection now : ℕ) : KeepsPending s (s.detach connection now) :=
  s.mapValues_pending fun scope r hr _ => by
    split_ifs
    · exact hr
    · exact hr

theorem insert_pending {scope scope' : Scope C} (hid : s.scopes.get id = some scope)
    (h : ∀ r ∈ scope.records, r.isTerminal = false → r ∈ scope'.records) :
    KeepsPending s { s with scopes := s.scopes.insert id scope' } := by
  intro other old hother r hr hpending
  by_cases heq : other = id
  · subst heq
    rw [hid] at hother
    obtain rfl := Option.some.inj hother
    exact ⟨scope', OrderedMap.get_insert_self _, h r hr hpending⟩
  · exact ⟨old, (OrderedMap.get_insert_of_ne _ heq).trans hother, hr⟩

theorem openScope_pending (hs : s.Inv) (old : Option String) (connection now : ℕ) :
    KeepsPending s (s.openScope old connection now).2 := by
  refine (expire_pending hs now).trans ?_
  cases old with
  | some old =>
    show KeepsPending _ ((s.expire now).resume old connection now).2
    obtain heq | ⟨scope, hid, heq⟩ := (s.expire now).resume_cases old connection now
    · rw [heq]
      exact .refl _
    · rw [heq]
      exact insert_pending hid fun r hr _ => hr
  | none =>
    show KeepsPending _ ((s.expire now).issue connection now).2
    have hinv := expire_inv hs now
    obtain ⟨error, heq⟩ | ⟨-, -, heq⟩ := (s.expire now).issue_cases connection now
    · rw [heq]
      exact .refl _
    · rw [heq]
      intro id scope hid r hr _
      refine ⟨scope, ?_, hr⟩
      dsimp only
      rw [OrderedMap.get_insert_of_ne _ fun hnew => ?_, hid]
      rw [hnew, hinv.next_unused] at hid
      cases hid

theorem mem_trimTerminal {r : Record C} (hpending : r.isTerminal = false) (fuel : ℕ) {records : List (Record C)} (hr : r ∈ records) :
    r ∈ trimTerminal fuel records := by
  induction fuel generalizing records with
  | zero => exact hr
  | succ fuel ih =>
    rw [trimTerminal]
    split_ifs
    · exact ih ((List.mem_eraseP_of_neg (by simp [hpending])).2 hr)
    · exact hr

theorem evict_pending (ho : ∀ id scope, s.scopes.get id = some scope → scope.Ordered) {t : ℕ} (h : (t, id, seq) ∈ s.outcomes) :
    KeepsPending s (s.evict id seq) := by
  obtain ⟨scope, hid, last, hlast, htime, hnumber⟩ := mem_outcomes.1 h
  rw [evict, hid]
  refine insert_pending hid fun r hr hpending => (List.mem_eraseP_of_neg ?_).2 hr
  -- the record of that number has an outcome
  intro hseq
  obtain rfl := (ho id scope hid).eq_of_seq hlast hr (hnumber.trans (by simpa using hseq : r.seq = seq).symm)
  have htimed := (ho id scope hid).timed last hr
  rw [htime, hpending] at htimed
  cases htimed

theorem evictTerminal_pending (ho : ∀ id scope, s.scopes.get id = some scope → scope.Ordered) (fuel : ℕ) :
    KeepsPending s (evictTerminal fuel s) := by
  induction fuel generalizing s with
  | zero => exact .refl s
  | succ fuel ih =>
    rw [evictTerminal]
    split_ifs
    · cases hearliest : earliest s.outcomes with
      | none => exact .refl s
      | some best =>
        obtain ⟨t, id, seq⟩ := best
        have hmem := earliest_mem hearliest
        exact (evict_pending ho hmem).trans (ih ((prunes_evict s id seq).ordered ho))
    · exact .refl s

theorem enforceTerminalBounds_pending (ho : ∀ id scope, s.scopes.get id = some scope → scope.Ordered) :
    KeepsPending s s.enforceTerminalBounds := by
  let trimmed (scope : Scope C) : Scope C := { scope with records := trimTerminal scope.terminalCount scope.records }
  have htrim : KeepsPending s { s with scopes := s.scopes.mapValues trimmed } :=
    s.mapValues_pending fun scope r hr hpending => mem_trimTerminal hpending _ hr
  have hprunes : Prunes { s with scopes := s.scopes.mapValues trimmed } s :=
    s.prunes_mapValues fun _ => ⟨rfl, trimTerminal_sublist _ _⟩
  exact htrim.trans (evictTerminal_pending (hprunes.ordered ho) _)

/-! ### Completing -/

/-- The record of a pending number is settled. -/
theorem settleFirst_isSome (now : ℕ) {records : List (Record C)} (hpending : ∀ r ∈ records, r.seq = seq → r.state = .accepted)
    (hsome : ∃ r ∈ records, r.seq = seq) : (settleFirst seq state now records).isSome = true := by
  induction records with
  | nil =>
    obtain ⟨r, hr, -⟩ := hsome
    cases hr
  | cons first rest ih =>
    rw [settleFirst]
    by_cases hfirst : first.seq = seq
    · simp [hfirst, hpending first List.mem_cons_self hfirst, OperationState.terminal]
    · rw [if_neg (by simpa using hfirst), Option.isSome_map]
      obtain ⟨r, hr, hseq⟩ := hsome
      have hlater : r ∈ rest := (List.mem_cons.1 hr).resolve_left fun heq => hfirst (heq ▸ hseq)
      exact ih (fun r' hr' => hpending r' (List.mem_cons_of_mem _ hr')) ⟨r, hlater, hseq⟩

/-- A pending number can be completed, unless the outcome is too large. -/
theorem complete_answers {size now : ℕ} (hknows : s.Knows id seq .accepted) (hs : s.Inv) (hsize : outcomeSize state = some size)
    (hfits : size ≤ outcomeSizeLimit) : (s.complete id seq state now).1 = .ok () := by
  obtain ⟨scope, hid, r, hr, hseq, hstate⟩ := hknows
  have hpending : ∀ r' ∈ scope.records, r'.seq = seq → r'.state = .accepted := by
    intro r' hr' hseq'
    rw [(hs.ordered id scope hid).eq_of_seq hr' hr (hseq'.trans hseq.symm), hstate]
  have hsettles : (settleFirst seq state now scope.records).isSome = true := settleFirst_isSome now hpending ⟨r, hr, hseq⟩
  obtain ⟨records, hrecords⟩ := Option.isSome_iff_exists.1 hsettles
  unfold complete
  rw [hsize]
  dsimp only
  rw [if_neg (not_lt.2 hfits), hid]
  dsimp only
  rw [hrecords]

section Completed

variable {now : ℕ} (h : (s.complete id seq state now).1 = .ok ())

include h

/-- What is known afterwards was known before, or is the new outcome of the completed number. -/
theorem complete_knows (hs : s.Inv) (hknows : (s.complete id seq state now).2.Knows id' seq' state') :
    s.Knows id' seq' state' ∧ ¬ (id' = id ∧ seq' = seq) ∨ id' = id ∧ seq' = seq ∧ state' = state := by
  obtain ⟨scope, l, r, l', hcompletion⟩ := complete_ok h
  have hprunes : Prunes (s.complete id seq state now).2 (s.settled id seq state now) := by
    rw [hcompletion.after]
    exact (prunes_enforceTerminalBounds _).of_scopes rfl rfl rfl
  obtain ⟨scope', hid', r', hr', hseq', hstate'⟩ := hprunes.knows hknows
  by_cases heq : id' = id
  · subst heq
    have ho := hcompletion.ordered hs id' scope' hid'
    rw [hcompletion.get_settled] at hid'
    obtain rfl := Option.some.inj hid'
    by_cases hnumber : seq' = seq
    · subst hnumber
      have hstored : { r with state := state, terminalAt := some now } ∈ (settledScope scope l r state now l').records := by
        simp [settledScope]
      have hsame := ho.eq_of_seq hr' hstored (hseq'.trans hcompletion.numbered.symm)
      rw [hsame] at hstate'
      exact .inr ⟨rfl, rfl, hstate'.symm⟩
    · refine .inl ⟨⟨scope, hcompletion.here, r', ?_, hseq', hstate'⟩, fun hboth => hnumber hboth.2⟩
      simp only [settledScope, List.mem_append, List.mem_cons] at hr'
      rw [hcompletion.split]
      rcases hr' with hr' | rfl | hr'
      · simp [hr']
      · exact absurd (hseq'.symm.trans hcompletion.numbered) hnumber
      · simp [hr']
  · rw [hcompletion.get_settled_of_ne heq] at hid'
    exact .inl ⟨⟨scope', hid', r', hr', hseq', hstate'⟩, fun hboth => heq hboth.1⟩

/-- A completed number was pending. -/
theorem complete_pending : s.Knows id seq .accepted := by
  obtain ⟨scope, l, r, l', hcompletion⟩ := complete_ok h
  refine ⟨scope, hcompletion.here, r, by simp [hcompletion.split], hcompletion.numbered, ?_⟩
  have hpending := hcompletion.pending
  cases hstate : r.state with
  | accepted => rfl
  | _ =>
    rw [hstate] at hpending
    cases hpending

/-- Every other pending number stays pending. -/
theorem complete_keeps (hs : s.Inv) (hknows : s.Knows id' seq' .accepted) (hother : ¬ (id' = id ∧ seq' = seq)) :
    (s.complete id seq state now).2.Knows id' seq' .accepted := by
  obtain ⟨scope, l, r, l', hcompletion⟩ := complete_ok h
  have hkeeps : KeepsPending (s.settled id seq state now) (s.complete id seq state now).2 := by
    rw [hcompletion.after]
    exact (enforceTerminalBounds_pending (hcompletion.ordered hs)).of_scopes rfl
  refine hkeeps.knows ?_
  obtain ⟨scope', hid', r', hr', hseq', hstate'⟩ := hknows
  by_cases heq : id' = id
  · subst heq
    rw [hcompletion.here] at hid'
    obtain rfl := Option.some.inj hid'
    refine ⟨_, hcompletion.get_settled, r', ?_, hseq', hstate'⟩
    rw [hcompletion.split, List.mem_append, List.mem_cons] at hr'
    simp only [settledScope, List.mem_append, List.mem_cons]
    rcases hr' with hr' | rfl | hr'
    · exact .inl hr'
    · exact absurd ⟨rfl, hseq'.symm.trans hcompletion.numbered⟩ hother
    · exact .inr (.inr hr')
  · exact ⟨scope', by rw [hcompletion.get_settled_of_ne heq, hid'], r', hr', hseq', hstate'⟩

theorem complete_terminal : state.terminal = true := by
  obtain ⟨scope, l, r, l', hcompletion⟩ := complete_ok h
  exact hcompletion.terminal

end Completed

/-! ### Reserving -/

variable [Candidate C]

/-- A reserved number is the only one that is new. -/
theorem reserve_knows {payload : Mutation C} (h : s.refusal id seq payload = none) (now : ℕ) :
    (s.reserve id seq payload now).Knows id' seq' state' ↔
      s.Knows id' seq' state' ∨ id' = id ∧ seq' = seq ∧ state' = .accepted := by
  obtain ⟨scope, hid, hnew, -⟩ := refusal_eq_none h
  rw [reserve, hid]
  constructor
  · rintro ⟨scope', hid', r, hr, hseq, hstate⟩
    obtain ⟨rfl, rfl⟩ | hid' := s.scopes.get_insert_cases hid'
    · simp only [reserved, List.mem_append, List.mem_singleton] at hr
      rcases hr with hr | rfl
      · exact .inl ⟨scope, hid, r, hr, hseq, hstate⟩
      · exact .inr ⟨rfl, hseq.symm, hstate.symm⟩
    · exact .inl ⟨scope', hid', r, hr, hseq, hstate⟩
  · rintro (⟨scope', hid', r, hr, hseq, hstate⟩ | ⟨rfl, rfl, rfl⟩)
    · by_cases heq : id' = id
      · subst heq
        rw [hid] at hid'
        obtain rfl := Option.some.inj hid'
        exact ⟨_, OrderedMap.get_insert_self _, r, List.mem_append_left _ hr, hseq, hstate⟩
      · exact ⟨scope', (OrderedMap.get_insert_of_ne _ heq).trans hid', r, hr, hseq, hstate⟩
    · exact ⟨_, OrderedMap.get_insert_self _, _, List.mem_append_right _ (List.mem_singleton_self _), rfl, rfl⟩

/-! ### One operation -/

/-- The number that a completion settles, and its outcome. -/
def settles (s : SessionStore C) : SessionOp C → Option ((String × ℕ) × OperationState)
  | .complete scopeId seq state now =>
    match (s.complete scopeId seq state now).1 with
    | .ok _ => some ((scopeId, seq), state)
    | .error _ => none
  | _ => none

/-- What an operation does to the work that is owed: it may take one number up and settle one. -/
structure Moves (s s' : SessionStore C) (taken : Option (String × ℕ)) (settled : Option ((String × ℕ) × OperationState)) : Prop where
  owed : ∀ id seq, s'.Knows id seq .accepted ↔
    (s.Knows id seq .accepted ∨ taken = some (id, seq)) ∧ settled.map Prod.fst ≠ some (id, seq)
  known : ∀ id seq state, s'.Knows id seq state → state ≠ .accepted →
    s.Knows id seq state ∨ settled = some ((id, seq), state)
  pending : ∀ id seq state, settled = some ((id, seq), state) → s.Knows id seq .accepted

omit [Candidate C] in
theorem Moves.quiet (hkeeps : KeepsPending s s') (hknown : ∀ id seq state, s'.Knows id seq state → s.Knows id seq state) :
    Moves s s' none none where
  owed id seq := by
    refine ⟨fun h => ⟨.inl (hknown id seq _ h), by simp⟩, fun h => ?_⟩
    exact hkeeps.knows (h.1.resolve_right (by simp))
  known id seq state h _ := .inl (hknown id seq state h)
  pending id seq state h := by cases h

omit [Candidate C] in
theorem Prunes.moves (h : Prunes s' s) (hkeeps : KeepsPending s s') : Moves s s' none none :=
  .quiet hkeeps fun _ _ _ => h.knows

omit [Candidate C] in
theorem openScope_moves (hs : s.Inv) (old : Option String) (connection now : ℕ) :
    Moves s (s.openScope old connection now).2 none none := by
  have hkeeps := openScope_pending hs old connection now
  have hprunes := s.prunes_expire now
  cases old with
  | some old => exact ((prunes_resume _ old connection now).trans hprunes).moves hkeeps
  | none =>
    refine .quiet hkeeps fun id seq state h => ?_
    replace h : ((s.expire now).issue connection now).2.Knows id seq state := h
    obtain ⟨error, heq⟩ | ⟨-, -, heq⟩ := (s.expire now).issue_cases connection now
    · rw [heq] at h
      exact hprunes.knows h
    · rw [heq] at h
      obtain ⟨scope, hid, r, hr, hseq, hstate⟩ := h
      obtain ⟨-, rfl⟩ | hid := (s.expire now).scopes.get_insert_cases hid
      · cases hr
      · exact hprunes.knows ⟨scope, hid, r, hr, hseq, hstate⟩

theorem call_moves (hs : s.Inv) (id : String) (seq : ℕ) (payload : Mutation C) (now : ℕ) (gate : Bool) :
    Moves s (s.call id seq payload now gate).1.2
      (if (s.call id seq payload now gate).1.1 = .accepted then some (id, seq) else none) none := by
  have hexpired : Moves s (s.expire now) none none := (s.prunes_expire now).moves (expire_pending hs now)
  cases h : (s.expire now).refusal id seq payload.normalized with
  | some answer =>
    rw [call_refused h, if_neg (refusal_ne_accepted h)]
    exact hexpired
  | none =>
    rw [call_asked h]
    cases gate with
    | false => exact hexpired
    | true =>
      simp only [if_true]
      refine ⟨fun id' seq' => ?_, fun id' seq' state hknows hstate => ?_, fun id' seq' state h => (by cases h)⟩
      · have howed := hexpired.owed id' seq'
        simp only [reduceCtorEq, or_false, Option.map_none, ne_eq, not_false_eq_true, and_true] at howed
        rw [reserve_knows h, howed]
        simp [eq_comm]
      · obtain hknows | ⟨-, -, rfl⟩ := (reserve_knows h now).1 hknows
        · exact .inl ((s.prunes_expire now).knows hknows)
        · exact absurd rfl hstate

omit [Candidate C] in
theorem complete_moves (hs : s.Inv) (id : String) (seq : ℕ) (state : OperationState) (now : ℕ) :
    Moves s (s.complete id seq state now).2 none (s.settles (.complete id seq state now)) := by
  cases h : (s.complete id seq state now).1 with
  | error error =>
    have hsame : (s.complete id seq state now).2 = s := complete_error h
    rw [hsame, settles, h]
    exact .quiet (.refl s) fun _ _ _ hknows => hknows
  | ok _ =>
    have hterminal := complete_terminal h
    rw [settles, h]
    refine ⟨fun id' seq' => ⟨fun hknows => ?_, fun hknows => ?_⟩, fun id' seq' state' hknows _ => ?_, fun id' seq' state' heq => ?_⟩
    · obtain ⟨hbefore, hother⟩ | ⟨-, -, rfl⟩ := complete_knows h hs hknows
      · refine ⟨.inl hbefore, fun heq => hother ?_⟩
        simpa [eq_comm] using heq
      · cases hterminal
    · refine complete_keeps h hs (hknows.1.resolve_right (by simp)) fun hboth => hknows.2 ?_
      simp [hboth.1, hboth.2]
    · obtain ⟨hbefore, -⟩ | ⟨rfl, rfl, rfl⟩ := complete_knows h hs hknows
      · exact .inl hbefore
      · exact .inr rfl
    · simp only [Option.some.injEq, Prod.mk.injEq] at heq
      obtain ⟨⟨rfl, rfl⟩, rfl⟩ := heq
      exact complete_pending h

theorem step_moves (hs : s.Inv) (op : SessionOp C) : Moves s (s.step op) (s.entry op).number? (s.settles op) := by
  cases op with
  | openScope old connection now =>
    have hnumber : (s.entry (.openScope old connection now)).number? = none := by
      cases old with
      | some old => rfl
      | none =>
        simp only [entry]
        cases (s.openScope none connection now).1 <;> rfl
    rw [hnumber]
    exact openScope_moves hs old connection now
  | detach connection now => exact (s.prunes_detach connection now).moves (s.detach_pending connection now)
  | admitMutation id seq payload now =>
    have hcall := call_moves hs id seq payload now true
    simp only [step, apply, entry, admit_eq_call]
    split_ifs with haccepted
    · rwa [if_pos haccepted] at hcall
    · rwa [if_neg haccepted] at hcall
  | admitWithGate id seq payload now gate =>
    have hcall := call_moves hs id seq payload now gate
    simp only [step, apply, entry]
    split_ifs with haccepted
    · rwa [if_pos haccepted] at hcall
    · rwa [if_neg haccepted] at hcall
  | complete id seq state now => exact complete_moves hs id seq state now
  | expire now => exact (s.prunes_expire now).moves (expire_pending hs now)

/-! ### Runs -/

/-- The numbers completed over a run with their outcomes, in order. -/
def completions (s : SessionStore C) : List (SessionOp C) → List ((String × ℕ) × OperationState)
  | [] => []
  | op :: ops => (s.settles op).toList ++ (s.step op).completions ops

theorem completions_snoc (s : SessionStore C) (ops : List (SessionOp C)) (op : SessionOp C) :
    s.completions (ops ++ [op]) = s.completions ops ++ ((s.run ops).settles op).toList := by
  induction ops generalizing s with
  | nil => simp [completions, run]
  | cons op' ops ih => simp [completions, ih, run]

theorem accepted_snoc (s : SessionStore C) (ops : List (SessionOp C)) (op : SessionOp C) :
    s.accepted (ops ++ [op]) = s.accepted ops ++ ((s.run ops).entry op).number?.toList := by
  rw [accepted, accepted, entries_snoc, Ledger.accepted_snoc]

theorem accepted_distinct {bootId : String} (h : new bootId = .ok s) (ops : List (SessionOp C)) : (s.accepted ops).Nodup := by
  have hlive : ∀ scopeId, s.ledger.live scopeId = none := by
    unfold new at h
    split_ifs at h
    obtain rfl := Except.ok.inj h
    exact fun _ => rfl
  exact ((s.run_ledger ops).1.inv (scopeName_injective _) hlive).accepted_nodup

/-- The account of a run: what is owed is what was accepted and not completed. -/
structure Account (s : SessionStore C) (ops : List (SessionOp C)) : Prop where
  owed : ∀ id seq, (s.run ops).Knows id seq .accepted ↔
    (id, seq) ∈ s.accepted ops ∧ (id, seq) ∉ (s.completions ops).map Prod.fst
  known : ∀ id seq state, (s.run ops).Knows id seq state → state ≠ .accepted → ((id, seq), state) ∈ s.completions ops
  once : ((s.completions ops).map Prod.fst).Nodup
  accepted : ∀ p ∈ (s.completions ops).map Prod.fst, p ∈ s.accepted ops

theorem Account.snoc {ops : List (SessionOp C)} (h : Account s ops) (hs : (s.run ops).Inv) (op : SessionOp C)
    (hdistinct : (s.accepted (ops ++ [op])).Nodup) : Account s (ops ++ [op]) := by
  have hrun : s.run (ops ++ [op]) = (s.run ops).step op := by simp [run]
  have hmoves := step_moves hs op
  -- a number just taken up was never accepted before
  have hfresh : ∀ p, ((s.run ops).entry op).number? = some p → p ∉ (s.completions ops).map Prod.fst := by
    intro p hp hbefore
    rw [accepted_snoc, hp, Option.toList_some, List.nodup_append] at hdistinct
    exact hdistinct.2.2 p (h.accepted p hbefore) p (List.mem_singleton_self p) rfl
  have hsettled : ∀ p state, (s.run ops).settles op = some (p, state) →
      p ∈ s.accepted ops ∧ p ∉ (s.completions ops).map Prod.fst := fun p state hp =>
    (h.owed p.1 p.2).1 (hmoves.pending p.1 p.2 state hp)
  refine ⟨fun id seq => ?_, fun id seq state hknows hstate => ?_, ?_, fun p hp => ?_⟩
  · have hdone : (id, seq) ∈ ((s.run ops).settles op).toList.map Prod.fst ↔
        ((s.run ops).settles op).map Prod.fst = some (id, seq) := by
      cases (s.run ops).settles op <;> simp [eq_comm]
    rw [hrun, hmoves.owed, h.owed, accepted_snoc, completions_snoc, List.map_append, List.mem_append, List.mem_append,
      Option.mem_toList, hdone]
    have hnew := hfresh (id, seq)
    tauto
  · rw [completions_snoc, List.mem_append, Option.mem_toList]
    rw [hrun] at hknows
    exact (hmoves.known id seq state hknows hstate).imp_left fun hold => h.known id seq state hold hstate
  · rw [completions_snoc, List.map_append, List.nodup_append]
    cases hsettles : (s.run ops).settles op with
    | none => simpa using h.once
    | some last =>
      refine ⟨h.once, by simp, fun p hp q hq => ?_⟩
      obtain rfl : q = last.1 := by simpa using hq
      rintro rfl
      exact (hsettled _ last.2 hsettles).2 hp
  · rw [completions_snoc, List.map_append, List.mem_append] at hp
    rw [accepted_snoc, List.mem_append]
    refine .inl (hp.elim (h.accepted p) fun hp => ?_)
    cases hsettles : (s.run ops).settles op with
    | none =>
      rw [hsettles] at hp
      cases hp
    | some last =>
      rw [hsettles] at hp
      obtain rfl : p = last.1 := by simpa using hp
      exact (hsettled _ last.2 hsettles).1

theorem run_account {bootId : String} (h : new bootId = .ok s) (ops : List (SessionOp C)) : Account s ops := by
  induction ops using List.reverseRecOn with
  | nil =>
    have hnone : ∀ id seq state, ¬ s.Knows id seq state := by
      unfold new at h
      split_ifs at h
      obtain rfl := Except.ok.inj h
      rintro id seq state ⟨scope, hid, -⟩
      cases hid
    refine ⟨fun id seq => ⟨fun hknows => absurd hknows (hnone id seq _), fun hmem => (by cases hmem.1)⟩,
      fun id seq state hknows _ => absurd hknows (hnone id seq state), List.nodup_nil, fun p hp => (by cases hp)⟩
  | append_singleton ops op ih => exact ih.snoc (run_inv (new_inv h) ops) op (accepted_distinct h _)

/-- Accepted work is neither lost nor made up: the numbers that a store answers as pending are exactly those it accepted and
has not completed; every outcome it answers was given to the number it is answered for; and no number is completed twice, or
without having been accepted. Outcomes and idle scopes are forgotten, work that is owed never is, and it can be completed. -/
theorem owed_until_completed {bootId : String} (h : new bootId = .ok s) (ops : List (SessionOp C)) :
    (∀ id seq, (s.run ops).status id seq = .known .accepted ↔
      (id, seq) ∈ s.accepted ops ∧ (id, seq) ∉ (s.completions ops).map Prod.fst) ∧
    (∀ id seq state, (s.run ops).status id seq = .known state → state ≠ .accepted → ((id, seq), state) ∈ s.completions ops) ∧
    ((s.completions ops).map Prod.fst).Nodup ∧ (∀ p ∈ (s.completions ops).map Prod.fst, p ∈ s.accepted ops) ∧
    ∀ id seq state now size, (s.run ops).status id seq = .known .accepted → outcomeSize state = some size →
      size ≤ outcomeSizeLimit → ((s.run ops).complete id seq state now).1 = .ok () := by
  have haccount := run_account h ops
  have hinv := run_inv (new_inv h) ops
  refine ⟨fun id seq => ?_, fun id seq state hstatus => ?_, haccount.once, haccount.accepted,
    fun id seq state now size hstatus hsize hfits => complete_answers (hinv.status.1 hstatus) hinv hsize hfits⟩
  · rw [hinv.status]
    exact haccount.owed id seq
  · exact haccount.known id seq state (hinv.status.1 hstatus)

/-- Of the two numbers that the retried reload and the shutdown took, the second is still owed. -/
theorem owed_until_completed_retries :
    bootStore.completions retries = [(("00112233445566778899aabbccddeeff:1", 1), .completed "{}")] ∧
      (bootStore.run retries).status "00112233445566778899aabbccddeeff:1" 2 = .known .accepted := by
  have hnew : new "00112233445566778899aabbccddeeff" = .ok bootStore := rfl
  have h := owed_until_completed hnew retries
  refine ⟨by decide +kernel, (h.1 _ _).2 ⟨by decide +kernel, by decide +kernel⟩⟩

end LabRuntime.Sessions.SessionStore
