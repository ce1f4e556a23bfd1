import LabRuntime.Sessions.Admission

/-! How long a stored outcome is known. A completion that exceeds a bound gives up one record:
the scope's first in admission order, or the store's earliest. Between completions an outcome
is lost only with its age or with its scope. -/

namespace LabRuntime.Sessions

namespace SessionStore

variable {C : Type}

/-! ### Looking an outcome up -/

theorem status_eq_known {s : SessionStore C} (ho : ∀ id scope, s.scopes.get id = some scope → scope.Ordered)
    {id : String} {seq : ℕ} {state : OperationState} :
    s.status id seq = .known state ↔
      ∃ scope, s.scopes.get id = some scope ∧ ∃ r ∈ scope.records, r.seq = seq ∧ r.state = state := by
  unfold status
  cases hid : s.scopes.get id with
  | none => simp
  | some scope =>
    cases hfind : scope.records.find? (·.seq == seq) with
    | none =>
      have hgone : ∀ r ∈ scope.records, r.seq ≠ seq := by simpa using List.find?_eq_none.1 hfind
      constructor
      · intro h
        simp only [hfind] at h
        cases h
      · rintro ⟨_, heq, r, hr, hseq, -⟩
        obtain rfl := Option.some.inj heq
        exact absurd hseq (hgone r hr)
    | some r =>
      have hr := List.mem_of_find?_eq_some hfind
      have hseq : r.seq = seq := by simpa using List.find?_some hfind
      simp only [hfind, Admission.known.injEq, Option.some.injEq]
      constructor
      · rintro rfl
        exact ⟨scope, rfl, r, hr, hseq, rfl⟩
      · rintro ⟨_, rfl, r', hr', hseq', rfl⟩
        rw [(ho _ _ hid).eq_of_seq hr hr' (hseq.trans hseq'.symm)]

/-- A number names at most one outcome. -/
theorem outcome_time {s : SessionStore C} (ho : ∀ id scope, s.scopes.get id = some scope → scope.Ordered)
    {t t' seq : ℕ} {id : String} (h : (t, id, seq) ∈ s.outcomes) (h' : (t', id, seq) ∈ s.outcomes) : t = t' := by
  obtain ⟨scope, hid, r, hr, ht, hseq⟩ := mem_outcomes.1 h
  obtain ⟨scope', hid', r', hr', ht', hseq'⟩ := mem_outcomes.1 h'
  obtain rfl : scope = scope' := Option.some.inj (hid.symm.trans hid')
  obtain rfl := (ho _ _ hid).eq_of_seq hr hr' (hseq.trans hseq'.symm)
  exact Option.some.inj (ht.symm.trans ht')

/-- The order of iteration: scopes by name, then records by number. -/
def Precedes (o o' : ℕ × String × ℕ) : Prop := o.2.1 < o'.2.1 ∨ o.2.1 = o'.2.1 ∧ o.2.2 < o'.2.2

theorem outcomes_sorted {s : SessionStore C} (ho : ∀ id scope, s.scopes.get id = some scope → scope.Ordered) :
    s.outcomes.Pairwise Precedes := by
  rw [outcomes, List.pairwise_flatMap]
  constructor
  · rintro ⟨id, scope⟩ hmem
    have hincreasing := List.pairwise_map.1 (ho id scope (s.scopes.mem_entries.1 hmem)).increasing
    rw [List.pairwise_filterMap]
    refine hincreasing.imp fun {r r'} hlt o hr o' hr' => ?_
    obtain ⟨t, -, rfl⟩ := Option.map_eq_some_iff.1 hr
    obtain ⟨t', -, rfl⟩ := Option.map_eq_some_iff.1 hr'
    exact .inr ⟨rfl, hlt⟩
  · refine s.scopes.sorted.imp fun {e e'} hlt o hr o' hr' => ?_
    obtain ⟨r, -, hr⟩ := List.mem_filterMap.1 hr
    obtain ⟨r', -, hr'⟩ := List.mem_filterMap.1 hr'
    obtain ⟨t, -, rfl⟩ := Option.map_eq_some_iff.1 hr
    obtain ⟨t', -, rfl⟩ := Option.map_eq_some_iff.1 hr'
    exact .inl hlt

/-- The earliest outcome is the first of those with the smallest time. -/
theorem earliest_split {l : List (ℕ × String × ℕ)} {best : ℕ × String × ℕ} (h : earliest l = some best) :
    ∃ l₁ l₂, l = l₁ ++ best :: l₂ ∧ (∀ o ∈ l₁, best.1 < o.1) ∧ ∀ o ∈ l₂, best.1 ≤ o.1 := by
  induction l generalizing best with
  | nil => cases h
  | cons outcome rest ih =>
    rw [earliest] at h
    cases hrest : earliest rest with
    | none =>
      rw [hrest] at h
      obtain rfl := Option.some.inj h
      obtain rfl := earliest_eq_none hrest
      exact ⟨[], [], rfl, fun _ h => (by cases h), fun _ h => (by cases h)⟩
    | some best' =>
      obtain ⟨l₁, l₂, rfl, hlow, hhigh⟩ := ih hrest
      rw [hrest] at h
      simp only at h
      split_ifs at h with hle
      · obtain rfl := Option.some.inj h
        refine ⟨[], _, rfl, fun _ h => (by cases h), fun o ho => ?_⟩
        rcases List.mem_append.1 ho with ho | ho
        · exact hle.trans (hlow o ho).le
        · rcases List.mem_cons.1 ho with rfl | ho
          · exact hle
          · exact hle.trans (hhigh o ho)
      · obtain rfl := Option.some.inj h
        refine ⟨outcome :: l₁, l₂, rfl, fun o ho => ?_, hhigh⟩
        rcases List.mem_cons.1 ho with rfl | ho
        · exact not_le.1 hle
        · exact hlow o ho

/-! ### What a completion gives up -/

/-- The store once a number's outcome is stored and before any bound is enforced. -/
def settled (s : SessionStore C) (id : String) (seq : ℕ) (state : OperationState) (now : ℕ) : SessionStore C :=
  match s.scopes.get id with
  | none => s
  | some scope =>
    match settleFirst seq state now scope.records with
    | none => s
    | some records => { s with scopes := s.scopes.insert id { scope with records } }

/-- Numbers are distinct, so erasing the first record of one erases its only record. -/
theorem eraseP_seq {records : List (Record C)} (h : (records.map Record.seq).Nodup) {seq : ℕ} :
    records.eraseP (·.seq == seq) = records.filter (fun r => !(r.seq == seq)) := by
  induction records with
  | nil => rfl
  | cons r rest ih =>
    rw [List.map_cons, List.nodup_cons] at h
    by_cases hseq : r.seq = seq
    · have hrest : rest.filter (fun r => !(r.seq == seq)) = rest := by
        refine List.filter_eq_self.2 fun r' hr' => ?_
        have hne : r'.seq ≠ seq := fun heq => h.1 (hseq ▸ heq ▸ List.mem_map_of_mem hr')
        simpa using hne
      simp [hseq, hrest]
    · simp [hseq, ih h.2]

theorem mem_outcomes_evict {s : SessionStore C} (ho : ∀ id scope, s.scopes.get id = some scope → scope.Ordered)
    {id : String} {seq : ℕ} {o : ℕ × String × ℕ} :
    o ∈ (s.evict id seq).outcomes ↔ o ∈ s.outcomes ∧ ¬ (o.2.1 = id ∧ o.2.2 = seq) := by
  obtain ⟨t, id', n⟩ := o
  unfold evict
  cases hid : s.scopes.get id with
  | none =>
    refine ⟨fun h => ⟨h, ?_⟩, fun h => h.1⟩
    rintro ⟨rfl, -⟩
    obtain ⟨scope, hscope, -⟩ := mem_outcomes.1 h
    rw [hid] at hscope
    cases hscope
  | some scope =>
    have herase : scope.records.eraseP (·.seq == seq) = scope.records.filter (fun r => !(r.seq == seq)) :=
      eraseP_seq ((ho id scope hid).increasing.imp fun hlt => hlt.ne)
    rw [mem_outcomes, mem_outcomes]
    simp only [OrderedMap.get_insert, herase]
    by_cases heq : id' = id
    · subst heq
      simp only [if_true, Option.some.injEq, hid, true_and, exists_eq_left', List.mem_filter]
      constructor
      · rintro ⟨r, ⟨hr, hne⟩, ht, rfl⟩
        exact ⟨⟨r, hr, ht, rfl⟩, by simpa using hne⟩
      · rintro ⟨⟨r, hr, ht, rfl⟩, hne⟩
        exact ⟨r, ⟨hr, by simpa using hne⟩, ht, rfl⟩
    · simp [heq]

theorem trimTerminal_of_le {fuel : ℕ} {records : List (Record C)}
    (h : records.countP Record.isTerminal ≤ maxTerminalScope) : trimTerminal fuel records = records := by
  cases fuel with
  | zero => rfl
  | succ fuel => rw [trimTerminal, if_neg (not_lt.2 h)]

/-- One record over the bound: the first terminal record goes. -/
theorem trimTerminal_of_eq {records : List (Record C)}
    (h : records.countP Record.isTerminal = maxTerminalScope + 1) :
    trimTerminal (maxTerminalScope + 1) records = records.eraseP Record.isTerminal := by
  have hpos := countP_eraseP (p := Record.isTerminal) (l := records) (by omega)
  rw [trimTerminal, if_pos (by omega)]
  exact trimTerminal_of_le (by omega)

/-- The record that goes when a completion on a scope exceeds a bound. -/
def victim (s : SessionStore C) (id : String) : Option (String × ℕ) :=
  match s.scopes.get id with
  | none => none
  | some scope =>
    if maxTerminalScope < scope.terminalCount then
      (scope.records.find? Record.isTerminal).map fun r => (id, r.seq)
    else if maxTerminal < s.terminalCount then (earliest s.outcomes).map Prod.snd
    else none

/-- Erasing the first terminal record is erasing its number. -/
theorem eraseP_terminal {scope : Scope C} (ho : scope.Ordered) {r : Record C}
    (h : scope.records.find? Record.isTerminal = some r) :
    scope.records.eraseP Record.isTerminal = scope.records.eraseP (·.seq == r.seq) := by
  obtain ⟨hterminal, l, l', heq, hl⟩ := List.find?_eq_some_iff_append.1 h
  have hincreasing := List.pairwise_map.1 ho.increasing
  rw [heq, List.pairwise_append] at hincreasing
  have hne : ∀ a ∈ l, ¬ (a.seq == r.seq) = true := fun a ha => by
    have hlt := hincreasing.2.2 a ha r List.mem_cons_self
    simpa using hlt.ne
  have hpend : ∀ a ∈ l, ¬ a.isTerminal = true := fun a ha => by simpa using hl a ha
  rw [heq, List.eraseP_append_right _ hpend, List.eraseP_append_right _ hne,
    List.eraseP_cons_of_pos hterminal, List.eraseP_cons_of_pos (by simp)]

theorem evictTerminal_of_le {fuel : ℕ} {s : SessionStore C} (h : s.terminalCount ≤ maxTerminal) :
    evictTerminal fuel s = s := by
  cases fuel with
  | zero => rfl
  | succ fuel => rw [evictTerminal, if_neg (not_lt.2 h)]

/-- What stands between a store and its terminal bounds once one more record is terminal. -/
structure AtMostOneOver (s : SessionStore C) (id : String) (scope : Scope C) : Prop where
  ordered : ∀ id scope, s.scopes.get id = some scope → scope.Ordered
  here : s.scopes.get id = some scope
  scope : scope.terminalCount ≤ maxTerminalScope + 1
  others : ∀ id' scope', s.scopes.get id' = some scope' → id' ≠ id → scope'.terminalCount ≤ maxTerminalScope
  store : s.terminalCount ≤ maxTerminal + 1

/-- Trimming changes no scope within its bound. -/
theorem AtMostOneOver.trimmed_others {s : SessionStore C} {id : String} {scope : Scope C}
    (h : s.AtMostOneOver id scope) {id' : String} (hne : id' ≠ id) :
    (s.scopes.get id').map (fun scope : Scope C =>
      { scope with records := trimTerminal scope.terminalCount scope.records }) = s.scopes.get id' := by
  cases hid : s.scopes.get id' with
  | none => rfl
  | some scope' =>
    rw [Option.map_some, trimTerminal_of_le (h.others id' scope' hid hne)]

/-- Enforcing the bounds gives up the victim and nothing else. -/
theorem AtMostOneOver.enforce {s : SessionStore C} {id : String} {scope : Scope C}
    (h : s.AtMostOneOver id scope) :
    s.enforceTerminalBounds = match s.victim id with
      | none => s
      | some (i, n) => s.evict i n := by
  rw [enforceTerminalBounds, victim, h.here]
  dsimp only
  by_cases hover : maxTerminalScope < scope.terminalCount
  · rw [if_pos hover]
    have hcount : scope.terminalCount = maxTerminalScope + 1 := le_antisymm h.scope hover
    have hpos : 0 < scope.records.countP Record.isTerminal := lt_of_le_of_lt (Nat.zero_le _) hover
    obtain ⟨r', hr', hterminal'⟩ := List.countP_pos_iff.1 hpos
    obtain ⟨r, hr⟩ : ∃ r, scope.records.find? Record.isTerminal = some r :=
      Option.isSome_iff_exists.1 (List.find?_isSome.2 ⟨r', hr', hterminal'⟩)
    have hscopes : (s.scopes.mapValues fun scope : Scope C =>
        { scope with records := trimTerminal scope.terminalCount scope.records }) =
        s.scopes.insert id { scope with records := scope.records.eraseP (·.seq == r.seq) } := by
      refine OrderedMap.ext_get fun id' => ?_
      rw [OrderedMap.get_mapValues, OrderedMap.get_insert]
      split_ifs with heq
      · rw [heq, h.here, Option.map_some, hcount, trimTerminal_of_eq hcount,
          eraseP_terminal (h.ordered id scope h.here) hr]
      · exact h.trimmed_others heq
    obtain ⟨t, ht⟩ : ∃ t, r.terminalAt = some t := by
      have htimed := (h.ordered id scope h.here).timed r (List.mem_of_find?_eq_some hr)
      exact Option.isSome_iff_exists.1 (htimed.trans (List.find?_some hr))
    have hless := evict_terminalCount h.ordered
      (mem_outcomes.2 ⟨scope, h.here, r, List.mem_of_find?_eq_some hr, ht, rfl⟩)
    have hstore := h.store
    rw [hr, Option.map_some, hscopes]
    have hevict : s.evict id r.seq = { s with
        scopes := s.scopes.insert id { scope with records := scope.records.eraseP (·.seq == r.seq) } } := by
      rw [evict, h.here]
    rw [← hevict]
    exact evictTerminal_of_le (by omega)
  · rw [if_neg hover]
    have hscopes : (s.scopes.mapValues fun scope : Scope C =>
        { scope with records := trimTerminal scope.terminalCount scope.records }) = s.scopes := by
      refine OrderedMap.ext_get fun id' => ?_
      rw [OrderedMap.get_mapValues]
      by_cases heq : id' = id
      · rw [heq, h.here, Option.map_some, trimTerminal_of_le (not_lt.1 hover)]
      · exact h.trimmed_others heq
    rw [hscopes]
    by_cases hstore : maxTerminal < s.terminalCount
    · rw [if_pos hstore]
      have hcount : s.terminalCount = maxTerminal + 1 := le_antisymm h.store hstore
      cases hbest : earliest s.outcomes with
      | none => exact absurd (earliest_eq_none hbest) (outcomes_ne_nil h.ordered (by omega))
      | some best =>
        obtain ⟨t, i, n⟩ := best
        have hless := evict_terminalCount h.ordered (earliest_mem hbest)
        show evictTerminal s.terminalCount s = s.evict i n
        rw [hcount, evictTerminal, if_pos hstore, hbest]
        exact evictTerminal_of_le (by omega)
    · rw [if_neg hstore]
      exact evictTerminal_of_le (not_lt.1 hstore)

/-! ### One completion -/

/-- A completion that is answered `ok` settled a pending record and enforced the bounds. -/
structure Completion (s : SessionStore C) (id : String) (seq : ℕ) (state : OperationState) (now : ℕ)
    (scope : Scope C) (l : List (Record C)) (r : Record C) (l' : List (Record C)) : Prop where
  terminal : state.terminal = true
  here : s.scopes.get id = some scope
  split : scope.records = l ++ r :: l'
  numbered : r.seq = seq
  pending : r.state.terminal = false
  settled : s.settled id seq state now = { s with
    scopes := s.scopes.insert id
      { scope with records := l ++ { r with state := state, terminalAt := some now } :: l' } }
  after : (s.complete id seq state now).2 =
    recountProvisioningCredit (enforceTerminalBounds (s.settled id seq state now))

theorem complete_ok {s : SessionStore C} {id : String} {seq : ℕ} {state : OperationState} {now : ℕ}
    (h : (s.complete id seq state now).1 = .ok ()) :
    ∃ scope l r l', Completion s id seq state now scope l r l' := by
  unfold complete at h
  cases hsize : outcomeSize state with
  | none => simp [hsize] at h
  | some size =>
    have hstate : state.terminal = true := by
      cases state with
      | accepted => cases hsize
      | completed _ => rfl
      | failed _ => rfl
      | failedWithResult _ _ => rfl
    by_cases hbig : outcomeSizeLimit < size
    · simp [hsize, hbig] at h
    cases hid : s.scopes.get id with
    | none => simp [hsize, hbig, hid] at h
    | some scope =>
      cases hset : settleFirst seq state now scope.records with
      | none => simp [hsize, hbig, hid, hset] at h
      | some records =>
        obtain ⟨l, r, l', hrecords, hseq, hpend, rfl⟩ := settleFirst_eq_some hset
        have hsettled : s.settled id seq state now = { s with
            scopes := s.scopes.insert id
              { scope with records := l ++ { r with state := state, terminalAt := some now } :: l' } } := by
          rw [settled, hid]
          simp only [hset]
        refine ⟨scope, l, r, l', hstate, hid, hrecords, hseq, hpend, hsettled, ?_⟩
        rw [hsettled, complete, hsize]
        dsimp only
        rw [if_neg hbig, hid]
        simp only [hset]

section Completion

variable {s : SessionStore C} {id : String} {seq : ℕ} {state : OperationState} {now : ℕ} {scope : Scope C}
  {l l' : List (Record C)} {r : Record C}

/-- The scope of the completed number before any bound is enforced. -/
def settledScope (scope : Scope C) (l : List (Record C)) (r : Record C) (state : OperationState) (now : ℕ)
    (l' : List (Record C)) : Scope C :=
  { scope with records := l ++ { r with state := state, terminalAt := some now } :: l' }

theorem Completion.get_settled (h : Completion s id seq state now scope l r l') :
    (s.settled id seq state now).scopes.get id = some (settledScope scope l r state now l') := by
  rw [h.settled]
  exact OrderedMap.get_insert_self _

theorem Completion.get_settled_of_ne (h : Completion s id seq state now scope l r l') {id' : String}
    (hne : id' ≠ id) : (s.settled id seq state now).scopes.get id' = s.scopes.get id' := by
  rw [h.settled]
  exact OrderedMap.get_insert_of_ne _ hne

theorem Completion.ordered (h : Completion s id seq state now scope l r l') (hs : s.Inv) (id' : String)
    (scope' : Scope C) (hid' : (s.settled id seq state now).scopes.get id' = some scope') : scope'.Ordered := by
  by_cases heq : id' = id
  · rw [heq, h.get_settled] at hid'
    obtain rfl := Option.some.inj hid'
    have ho := hs.ordered id scope h.here
    refine ⟨?_, fun r' hr' => ?_, fun r' hr' => ?_⟩
    · have hincreasing := ho.increasing
      rw [h.split] at hincreasing
      simpa [settledScope] using hincreasing
    · simp only [settledScope, List.mem_append, List.mem_cons] at hr'
      rcases hr' with hr' | rfl | hr'
      · exact ho.bounded r' (by simp [h.split, hr'])
      · exact ho.bounded r (by simp [h.split])
      · exact ho.bounded r' (by simp [h.split, hr'])
    · simp only [settledScope, List.mem_append, List.mem_cons] at hr'
      rcases hr' with hr' | rfl | hr'
      · exact ho.timed r' (by simp [h.split, hr'])
      · exact h.terminal.symm
      · exact ho.timed r' (by simp [h.split, hr'])
  · rw [h.get_settled_of_ne heq] at hid'
    exact hs.ordered id' scope' hid'

theorem Completion.scope_terminalCount (h : Completion s id seq state now scope l r l') :
    (settledScope scope l r state now l').terminalCount = scope.terminalCount + 1 := by
  simp only [Scope.terminalCount, settledScope, h.split, List.countP_append, List.countP_cons,
    Record.isTerminal, h.terminal, h.pending, if_true, Bool.false_eq_true, if_false]
  omega

theorem Completion.terminalCount (h : Completion s id seq state now scope l r l') :
    (s.settled id seq state now).terminalCount = s.terminalCount + 1 := by
  have htotal := s.scopes.total_insert_of_get Scope.terminalCount (settledScope scope l r state now l') h.here
  have hscope := h.scope_terminalCount
  rw [h.settled]
  simp only [SessionStore.terminalCount]
  show (s.scopes.insert id (settledScope scope l r state now l')).total Scope.terminalCount = _
  omega

theorem Completion.atMostOneOver (h : Completion s id seq state now scope l r l') (hs : s.Inv) :
    (s.settled id seq state now).AtMostOneOver id (settledScope scope l r state now l') := by
  refine ⟨h.ordered hs, h.get_settled, ?_, fun id' scope' hid' hne => ?_, ?_⟩
  · rw [h.scope_terminalCount]
    exact Nat.succ_le_succ (hs.bounded.terminalScope id scope h.here)
  · rw [h.get_settled_of_ne hne] at hid'
    exact hs.bounded.terminalScope id' scope' hid'
  · rw [h.terminalCount]
    exact Nat.succ_le_succ hs.bounded.terminal

/-- The outcomes before any bound is enforced: those retained and the new one. -/
theorem Completion.mem_settled (h : Completion s id seq state now scope l r l') (hs : s.Inv)
    {o : ℕ × String × ℕ} : o ∈ (s.settled id seq state now).outcomes ↔ o ∈ s.outcomes ∨ o = (now, id, seq) := by
  obtain ⟨t, id', n⟩ := o
  have hseq := h.numbered
  have htimed := (hs.ordered id scope h.here).timed r (by simp [h.split])
  have hnone : r.terminalAt = none := by
    rw [Record.isTerminal, h.pending] at htimed
    simpa using htimed
  rw [mem_outcomes, mem_outcomes]
  by_cases heq : id' = id
  · subst heq
    rw [h.get_settled, h.here]
    simp only [Option.some.injEq, exists_eq_left', settledScope, h.split, List.mem_append, List.mem_cons,
      Prod.mk.injEq, true_and]
    constructor
    · rintro ⟨r', hr' | rfl | hr', ht, hn⟩
      · exact .inl ⟨r', .inl hr', ht, hn⟩
      · exact .inr ⟨(Option.some.inj ht).symm, hn.symm.trans hseq⟩
      · exact .inl ⟨r', .inr (.inr hr'), ht, hn⟩
    · rintro (⟨r', hr' | rfl | hr', ht, hn⟩ | ⟨rfl, rfl⟩)
      · exact ⟨r', .inl hr', ht, hn⟩
      · rw [hnone] at ht
        cases ht
      · exact ⟨r', .inr (.inr hr'), ht, hn⟩
      · exact ⟨_, .inr (.inl rfl), rfl, hseq⟩
  · rw [h.get_settled_of_ne heq]
    simp [heq]

/-- A completion keeps the outcomes that are not the victim. -/
theorem Completion.mem_outcomes (h : Completion s id seq state now scope l r l') (hs : s.Inv)
    {o : ℕ × String × ℕ} : o ∈ (s.complete id seq state now).2.outcomes ↔
      o ∈ (s.settled id seq state now).outcomes ∧ (s.settled id seq state now).victim id ≠ some o.2 := by
  have henforce := (h.atMostOneOver hs).enforce
  rw [h.after, henforce]
  cases hv : (s.settled id seq state now).victim id with
  | none => simp [recountProvisioningCredit, outcomes]
  | some v =>
    obtain ⟨i, n⟩ := v
    show o ∈ ((s.settled id seq state now).evict i n).outcomes ↔ _
    rw [mem_outcomes_evict (h.ordered hs), ne_eq, Option.some.injEq, Prod.ext_iff]
    simp only [eq_comm]

/-- The completed number is known with its state as long as its outcome is there. -/
theorem Completion.status (h : Completion s id seq state now scope l r l') (hs : s.Inv) :
    (s.complete id seq state now).2.status id seq = .known state ↔
      (now, id, seq) ∈ (s.complete id seq state now).2.outcomes := by
  have hinv := complete_inv hs id seq state now
  have hprunes : Prunes (s.complete id seq state now).2 (s.settled id seq state now) := by
    rw [h.after]
    exact (prunes_enforceTerminalBounds _).of_scopes rfl rfl rfl
  let settledRecord : Record C := { r with state := state, terminalAt := some now }
  have hsame : ∀ scope', (s.complete id seq state now).2.scopes.get id = some scope' →
      ∀ r' ∈ scope'.records, r'.seq = seq → r' = settledRecord := by
    intro scope' hid' r' hr' hseq'
    obtain ⟨scope₀, hid₀, hshrinks⟩ := hprunes.scopes id scope' hid'
    have ho := h.ordered hs id scope₀ hid₀
    rw [h.get_settled] at hid₀
    obtain rfl := Option.some.inj hid₀
    exact ho.eq_of_seq (hshrinks.2.subset hr') (by simp [settledScope, settledRecord]) (hseq'.trans h.numbered.symm)
  rw [status_eq_known hinv.ordered, SessionStore.mem_outcomes]
  constructor
  · rintro ⟨scope', hid', r', hr', hseq', -⟩
    obtain rfl := hsame scope' hid' r' hr' hseq'
    exact ⟨scope', hid', _, hr', rfl, hseq'⟩
  · rintro ⟨scope', hid', r', hr', -, hseq'⟩
    obtain rfl := hsame scope' hid' r' hr' hseq'
    exact ⟨scope', hid', _, hr', hseq', rfl⟩

end Completion

/-! ### Which completions evict the oldest -/

/-- The outcomes that `s'` lacks left a scope or a store over its bound, and none retained there is older. -/
def OldestFirst (s s' : SessionStore C) : Prop :=
  ∀ t id n, (t, id, n) ∈ s.outcomes → (t, id, n) ∉ s'.outcomes →
    (∃ scope, s.scopes.get id = some scope ∧ maxTerminalScope < scope.terminalCount ∧
      ∀ t' n', (t', id, n') ∈ s'.outcomes → t ≤ t') ∨
    maxTerminal < s.terminalCount ∧ ∀ o ∈ s'.outcomes, t ≤ o.1

/-- Terminal once the record of `seq` is. -/
def terminalOnce (seq : ℕ) (r : Record C) : Bool := r.isTerminal || r.seq == seq

/-- The first record in admission order that is terminal once `seq` is. -/
def firstOut (scope : Scope C) (seq : ℕ) : Option (Record C) :=
  scope.records.find? (terminalOnce seq)

/-- The first record to go is another one, and no outcome of the scope is older than its own. -/
def ScopeSpares (scope : Scope C) (seq now : ℕ) : Prop :=
  ∃ r t, firstOut scope seq = some r ∧ r.seq ≠ seq ∧ r.terminalAt = some t ∧ t ≤ now ∧
    ∀ r' ∈ scope.records, ∀ t', r'.terminalAt = some t' → t ≤ t'

/-- Some retained outcome is older than `now`, or as old and earlier in the order of iteration. -/
def StoreSpares (s : SessionStore C) (id : String) (seq now : ℕ) : Prop :=
  ∃ o ∈ s.outcomes, o.1 < now ∨ o.1 = now ∧ Precedes o (now, id, seq)

/-- A completion has room, or what it exceeds spares the completed number for an older one. -/
def Spares (s : SessionStore C) (id : String) (seq now : ℕ) : Prop :=
  ∀ scope, s.scopes.get id = some scope →
    (maxTerminalScope ≤ scope.terminalCount → ScopeSpares scope seq now) ∧
      (scope.terminalCount < maxTerminalScope → maxTerminal ≤ s.terminalCount → s.StoreSpares id seq now)

section Completion

variable {s : SessionStore C} {id : String} {seq : ℕ} {state : OperationState} {now : ℕ} {scope : Scope C}
  {l l' : List (Record C)} {r : Record C}

/-- The first record to go, read before the outcome is stored. -/
theorem Completion.firstOut_settled (h : Completion s id seq state now scope l r l') (hs : s.Inv) :
    ((settledScope scope l r state now l').records.find? Record.isTerminal).map Record.seq =
      (firstOut scope seq).map Record.seq := by
  have hseq := h.numbered
  have hincreasing := List.pairwise_map.1 (hs.ordered id scope h.here).increasing
  rw [h.split, List.pairwise_append] at hincreasing
  have hfirst : l.find? (terminalOnce seq) = l.find? Record.isTerminal := by
    refine List.find?_congr fun a ha => ?_
    have hlt := hincreasing.2.2 a ha r List.mem_cons_self
    have hne : (a.seq == seq) = false := by simpa [← hseq] using hlt.ne
    rw [terminalOnce, hne, Bool.or_false]
  have hterminal : ({ r with state := state, terminalAt := some now } : Record C).isTerminal = true := h.terminal
  have hhit : terminalOnce seq r = true := by simp [terminalOnce, hseq]
  rw [firstOut, h.split, settledScope, List.find?_append, List.find?_append, hfirst,
    List.find?_cons_of_pos hterminal, List.find?_cons_of_pos hhit]
  cases l.find? Record.isTerminal <;> rfl

/-- What goes is the scope's first record out, the store's earliest outcome, or nothing. -/
theorem Completion.victim (h : Completion s id seq state now scope l r l') (hs : s.Inv) :
    (s.settled id seq state now).victim id =
      if maxTerminalScope ≤ scope.terminalCount then (firstOut scope seq).map fun r => (id, r.seq)
      else if maxTerminal ≤ s.terminalCount then (earliest (s.settled id seq state now).outcomes).map Prod.snd
      else none := by
  have hfirst := congrArg (Option.map fun n => (id, n)) (h.firstOut_settled hs)
  rw [Option.map_map, Option.map_map] at hfirst
  rw [SessionStore.victim, h.get_settled]
  simp only [h.scope_terminalCount, h.terminalCount, Nat.lt_succ_iff]
  rw [← show ((settledScope scope l r state now l').records.find? Record.isTerminal).map (fun r => (id, r.seq)) =
    (firstOut scope seq).map fun r => (id, r.seq) from hfirst]

/-- At the scope's bound: exact when the first record out is another one and an oldest one. -/
theorem Completion.scope_spares (h : Completion s id seq state now scope l r l') (hs : s.Inv)
    (hfull : maxTerminalScope ≤ scope.terminalCount) :
    (now, id, seq) ∈ (s.complete id seq state now).2.outcomes ∧
        OldestFirst (s.settled id seq state now) (s.complete id seq state now).2 ↔
      ScopeSpares scope seq now := by
  have ho := hs.ordered id scope h.here
  have hr : r ∈ scope.records := by simp [h.split]
  obtain ⟨f, hf⟩ : ∃ f, firstOut scope seq = some f := by
    refine Option.isSome_iff_exists.1 (List.find?_isSome.2 ⟨r, hr, ?_⟩)
    simp [terminalOnce, h.numbered]
  have hv : (s.settled id seq state now).victim id = some (id, f.seq) := by
    rw [h.victim hs, if_pos hfull, hf, Option.map_some]
  have hmem : f ∈ scope.records := List.mem_of_find?_eq_some hf
  have hhit : terminalOnce seq f = true := List.find?_some hf
  have hkeeps : ∀ o, o ∈ (s.complete id seq state now).2.outcomes ↔
      (o ∈ s.outcomes ∨ o = (now, id, seq)) ∧ (id, f.seq) ≠ o.2 := fun o => by
    rw [h.mem_outcomes hs, hv, h.mem_settled hs, ne_eq, ne_eq, Option.some.injEq]
  constructor
  · rintro ⟨hknown, holdest⟩
    have hne : f.seq ≠ seq := fun heq => ((hkeeps _).1 hknown).2 (by rw [heq])
    have hterminal : f.isTerminal = true := by simpa [terminalOnce, hne] using hhit
    obtain ⟨t, ht⟩ := Option.isSome_iff_exists.1 ((ho.timed f hmem).trans hterminal)
    have hout : (t, id, f.seq) ∈ s.outcomes := SessionStore.mem_outcomes.2 ⟨scope, h.here, f, hmem, ht, rfl⟩
    have hlow : ∀ t' n', (t', id, n') ∈ (s.complete id seq state now).2.outcomes → t ≤ t' := by
      have hgone : (t, id, f.seq) ∉ (s.complete id seq state now).2.outcomes :=
        fun hin => ((hkeeps _).1 hin).2 rfl
      obtain ⟨-, -, -, hmin⟩ | ⟨-, hmin⟩ := holdest t id f.seq ((h.mem_settled hs).2 (.inl hout)) hgone
      · exact hmin
      · exact fun t' n' hin => hmin _ hin
    refine ⟨f, t, hf, hne, ht, hlow _ _ hknown, fun r' hr' t' ht' => ?_⟩
    by_cases heq : r'.seq = f.seq
    · obtain rfl := ho.eq_of_seq hr' hmem heq
      exact (Option.some.inj (ht.symm.trans ht')).le
    · refine hlow t' r'.seq ((hkeeps _).2 ⟨.inl ?_, fun hpair => heq (Prod.mk.inj hpair).2.symm⟩)
      exact SessionStore.mem_outcomes.2 ⟨scope, h.here, r', hr', ht', rfl⟩
  · rintro ⟨f', t, hf', hne, ht, hnow, hmin⟩
    obtain rfl : f = f' := Option.some.inj (hf.symm.trans hf')
    refine ⟨(hkeeps _).2 ⟨.inr rfl, fun hpair => hne (Prod.mk.inj hpair).2⟩, fun t' i n hin hgone => .inl ?_⟩
    rw [h.mem_settled hs] at hin
    -- only the first record out is gone
    have hpair : (id, f.seq) = (i, n) := by
      by_contra hother
      exact hgone ((hkeeps _).2 ⟨hin, hother⟩)
    obtain ⟨rfl, rfl⟩ := Prod.mk.inj hpair
    have hout : (t, id, f.seq) ∈ s.outcomes := SessionStore.mem_outcomes.2 ⟨scope, h.here, f, hmem, ht, rfl⟩
    have htime : t' = t := by
      rcases hin with hin | heq
      · exact outcome_time hs.ordered hin hout
      · exact absurd (Prod.mk.inj (Prod.mk.inj heq).2).2 hne
    refine ⟨_, h.get_settled, ?_, fun t'' n'' hin'' => ?_⟩
    · rw [h.scope_terminalCount]
      exact Nat.lt_succ_of_le hfull
    · rw [htime]
      rcases ((hkeeps _).1 hin'').1 with hin'' | heq
      · obtain ⟨scope', hid', r', hr', ht', -⟩ := SessionStore.mem_outcomes.1 hin''
        obtain rfl := Option.some.inj (h.here.symm.trans hid')
        exact hmin r' hr' t'' ht'
      · rw [(Prod.mk.inj heq).1]
        exact hnow

/-- At the store's bound only: the earliest outcome goes, so all that counts is whether it is another one. -/
theorem Completion.store_spares (h : Completion s id seq state now scope l r l') (hs : s.Inv)
    (hroom : scope.terminalCount < maxTerminalScope) (hfull : maxTerminal ≤ s.terminalCount) :
    (now, id, seq) ∈ (s.complete id seq state now).2.outcomes ∧
        OldestFirst (s.settled id seq state now) (s.complete id seq state now).2 ↔
      s.StoreSpares id seq now := by
  have ho := h.ordered hs
  have hnew : (now, id, seq) ∈ (s.settled id seq state now).outcomes := (h.mem_settled hs).2 (.inr rfl)
  obtain ⟨best, hbest⟩ : ∃ best, earliest (s.settled id seq state now).outcomes = some best := by
    cases hbest : earliest (s.settled id seq state now).outcomes with
    | none => exact absurd (earliest_eq_none hbest) (List.ne_nil_of_mem hnew)
    | some best => exact ⟨best, rfl⟩
  have hv : (s.settled id seq state now).victim id = some best.2 := by
    rw [h.victim hs, if_neg (not_le.2 hroom), if_pos hfull, hbest, Option.map_some]
  have hkeeps : ∀ o, o ∈ (s.complete id seq state now).2.outcomes ↔
      o ∈ (s.settled id seq state now).outcomes ∧ best.2 ≠ o.2 := fun o => by
    rw [h.mem_outcomes hs, hv, ne_eq, ne_eq, Option.some.injEq]
  obtain ⟨l₁, l₂, hsplit, hlow, hhigh⟩ := earliest_split hbest
  have hmin : ∀ o ∈ (s.settled id seq state now).outcomes, best.1 ≤ o.1 := fun o hin => by
    rw [hsplit, List.mem_append, List.mem_cons] at hin
    rcases hin with hin | rfl | hin
    · exact (hlow o hin).le
    · exact le_rfl
    · exact hhigh o hin
  have hsorted := outcomes_sorted ho
  rw [hsplit, List.pairwise_append, List.pairwise_cons] at hsorted
  have holdest : OldestFirst (s.settled id seq state now) (s.complete id seq state now).2 := by
    intro t i n hin hgone
    have hpair : best.2 = (i, n) := by
      by_contra hother
      exact hgone ((hkeeps _).2 ⟨hin, hother⟩)
    obtain ⟨t', i', n'⟩ := best
    obtain ⟨rfl, rfl⟩ := Prod.mk.inj hpair
    have htime : t' = t := outcome_time ho (earliest_mem hbest) hin
    refine .inr ⟨?_, fun o hkept => ?_⟩
    · rw [h.terminalCount]
      exact Nat.lt_succ_of_le hfull
    · rw [← htime]
      exact hmin o ((hkeeps o).1 hkept).1
  constructor
  · rintro ⟨hknown, -⟩
    have hne : best ≠ (now, id, seq) := fun heq => ((hkeeps _).1 hknown).2 (by rw [heq])
    have hold : best ∈ s.outcomes := by
      rcases (h.mem_settled hs).1 (earliest_mem hbest) with hold | heq
      · exact hold
      · exact absurd heq hne
    refine ⟨best, hold, ?_⟩
    rw [hsplit, List.mem_append, List.mem_cons] at hnew
    rcases hnew with hnew | heq | hnew
    · exact .inl (hlow _ hnew)
    · exact absurd heq.symm hne
    · rcases (hhigh _ hnew).lt_or_eq with hlt | heq
      · exact .inl hlt
      · exact .inr ⟨heq, hsorted.2.1.1 _ hnew⟩
  · rintro ⟨o, hold, hbefore⟩
    refine ⟨(hkeeps _).2 ⟨hnew, fun hpair => ?_⟩, holdest⟩
    -- an outcome before the completed one is never after it in the settled store
    have htime : best.1 = now := by
      obtain ⟨t', i', n'⟩ := best
      obtain ⟨rfl, rfl⟩ := Prod.mk.inj hpair
      exact outcome_time ho (earliest_mem hbest) hnew
    have hin := (h.mem_settled hs).2 (.inl hold)
    have hge := hmin o hin
    rcases hbefore with hlt | ⟨heq, hprecedes⟩
    · omega
    · rw [hsplit, List.mem_append, List.mem_cons] at hin
      have hself : ¬ Precedes o o := by
        rintro (hlt | ⟨-, hlt⟩)
        · exact absurd hlt (lt_irrefl _)
        · exact absurd hlt (lt_irrefl _)
      have hprecedes' : Precedes o best := by
        rw [Precedes, hpair]
        exact hprecedes
      rcases hin with hin | rfl | hin
      · have hlt := hlow o hin
        omega
      · exact hself hprecedes'
      · have hafter : Precedes best o := hsorted.2.1.1 o hin
        rcases hprecedes' with hlt | ⟨heq', hlt⟩
        · rcases hafter with hlt' | ⟨heq', -⟩
          · exact absurd hlt hlt'.not_gt
          · exact absurd heq' hlt.ne'
        · rcases hafter with hlt' | ⟨-, hlt'⟩
          · exact absurd heq' hlt'.ne'
          · exact absurd hlt hlt'.not_gt

/-- A completion keeps the new outcome and evicts oldest first exactly when it spares the new one. -/
theorem Completion.keeps_iff (h : Completion s id seq state now scope l r l') (hs : s.Inv) :
    (s.complete id seq state now).2.status id seq = .known state ∧
        OldestFirst (s.settled id seq state now) (s.complete id seq state now).2 ↔
      s.Spares id seq now := by
  rw [h.status hs]
  have hspares : s.Spares id seq now ↔
      (maxTerminalScope ≤ scope.terminalCount → ScopeSpares scope seq now) ∧
        (scope.terminalCount < maxTerminalScope → maxTerminal ≤ s.terminalCount →
          s.StoreSpares id seq now) := by
    constructor
    · intro hall
      exact hall scope h.here
    · intro hone scope' hid'
      obtain rfl := Option.some.inj (h.here.symm.trans hid')
      exact hone
  rw [hspares]
  rcases Nat.lt_or_ge scope.terminalCount maxTerminalScope with hroom | hscope
  · simp only [not_le.2 hroom, false_imp_iff, true_and, hroom, true_imp_iff]
    by_cases hfull : maxTerminal ≤ s.terminalCount
    · simpa only [hfull, true_imp_iff] using h.store_spares hs hroom hfull
    · have hv : (s.settled id seq state now).victim id = none := by
        rw [h.victim hs, if_neg (not_le.2 hroom), if_neg hfull]
      have hkeeps : ∀ o, o ∈ (s.complete id seq state now).2.outcomes ↔
          o ∈ (s.settled id seq state now).outcomes := fun o => by
        rw [h.mem_outcomes hs, hv]
        simp
      simp only [hfull, false_imp_iff, iff_true]
      refine ⟨(hkeeps _).2 ((h.mem_settled hs).2 (.inr rfl)), fun t i n hin hgone => ?_⟩
      exact absurd ((hkeeps _).2 hin) hgone
  · simp only [hscope, true_imp_iff, not_lt.2 hscope, false_imp_iff, and_true]
    exact h.scope_spares hs hscope

end Completion

/-! ### Expiry -/

/-- Every scope with an outcome younger than its retention is attached, pending or recently active. -/
def KeepsScopes (s : SessionStore C) (now : ℕ) : Prop :=
  ∀ id scope, s.scopes.get id = some scope →
    (∃ r ∈ scope.records, ∃ t, r.terminalAt = some t ∧ now < t + terminalTtl) →
    scope.attached.isSome ∨ (∃ r ∈ scope.records, r.pending) ∨ now < scope.lastActive + idleScopeTtl

theorem unexpired_of_lt {now t : ℕ} {r : Record C} (ht : r.terminalAt = some t) (h : now < t + terminalTtl) :
    unexpired now r = true := by
  have hpos : 0 < terminalTtl := by decide
  simp only [unexpired, ht, Bool.or_eq_true, decide_eq_true_eq]
  omega

/-- Expiry keeps a scope for what the scope holds before its outcomes are dropped. -/
theorem retained_iff {scope : Scope C} (ho : scope.Ordered) (now : ℕ) :
    retained now { scope with records := scope.records.filter (unexpired now) } = true ↔
      scope.attached.isSome ∨ (∃ r ∈ scope.records, r.pending) ∨ now < scope.lastActive + idleScopeTtl := by
  have hpos : 0 < idleScopeTtl := by decide
  have hpend : ∀ r ∈ scope.records, r.pending = true → unexpired now r = true := fun r hr hpend => by
    have htimed := ho.timed r hr
    have hnone : r.terminalAt = none := by
      simp only [Record.pending, Bool.not_eq_true'] at hpend
      rw [Record.isTerminal, hpend] at htimed
      simpa using htimed
    simp [unexpired, hnone]
  have hany : (∃ r ∈ scope.records.filter (unexpired now), r.pending = true) ↔
      ∃ r ∈ scope.records, r.pending = true := by
    constructor
    · rintro ⟨r, hr, h⟩
      exact ⟨r, (List.mem_filter.1 hr).1, h⟩
    · rintro ⟨r, hr, h⟩
      exact ⟨r, List.mem_filter.2 ⟨hr, hpend r hr h⟩, h⟩
  simp only [retained, Bool.or_eq_true, List.any_eq_true, hany, decide_eq_true_eq]
  constructor
  · rintro (((h | h) | h) | h)
    · exact .inl h
    · exact .inr (.inl h)
    · exact .inr (.inr (by omega))
    · exact .inr (.inr (by omega))
  · rintro (h | h | h)
    · exact .inl (.inl (.inl h))
    · exact .inl (.inl (.inr h))
    · exact .inr (by omega)

theorem get_expire {s : SessionStore C} {now : ℕ} {id : String} :
    (s.expire now).scopes.get id = ((s.scopes.get id).map fun scope : Scope C =>
      { scope with records := scope.records.filter (unexpired now) }).filter (retained now) := by
  show ((s.scopes.mapValues _).retain _).get id = _
  rw [OrderedMap.get_retain, OrderedMap.get_mapValues]

/-- The outcome of a number with its state and its time. -/
def Holds (s : SessionStore C) (id : String) (seq : ℕ) (state : OperationState) (t : ℕ) : Prop :=
  ∃ scope, s.scopes.get id = some scope ∧
    ∃ r ∈ scope.records, r.seq = seq ∧ r.state = state ∧ r.terminalAt = some t

theorem Holds.status {s : SessionStore C} (hs : s.Inv) {id : String} {seq t : ℕ} {state : OperationState}
    (h : s.Holds id seq state t) : s.status id seq = .known state := by
  obtain ⟨scope, hid, r, hr, hseq, hstate, -⟩ := h
  exact (status_eq_known hs.ordered).2 ⟨scope, hid, r, hr, hseq, hstate⟩

theorem Holds.mem_outcomes {s : SessionStore C} {id : String} {seq t : ℕ} {state : OperationState}
    (h : s.Holds id seq state t) : (t, id, seq) ∈ s.outcomes := by
  obtain ⟨scope, hid, r, hr, hseq, -, ht⟩ := h
  exact SessionStore.mem_outcomes.2 ⟨scope, hid, r, hr, ht, hseq⟩

/-- An outcome kept by pruning keeps its state. -/
theorem Holds.of_prunes {s s' : SessionStore C} (hprunes : Prunes s' s)
    (ho : ∀ id scope, s.scopes.get id = some scope → scope.Ordered) {id : String} {seq t : ℕ}
    {state : OperationState} (h : s.Holds id seq state t) (hkept : (t, id, seq) ∈ s'.outcomes) :
    s'.Holds id seq state t := by
  obtain ⟨scope, hid, r, hr, hseq, hstate, ht⟩ := h
  obtain ⟨scope', hid', r', hr', ht', hseq'⟩ := SessionStore.mem_outcomes.1 hkept
  obtain ⟨scope₀, hid₀, hshrinks⟩ := hprunes.scopes id scope' hid'
  obtain rfl := Option.some.inj (hid.symm.trans hid₀)
  obtain rfl := (ho id scope hid).eq_of_seq hr (hshrinks.2.subset hr') (hseq.trans hseq'.symm)
  exact ⟨scope', hid', r, hr', hseq', hstate, ht'⟩

/-- Expiry keeps the young outcomes exactly when it keeps the scopes that hold one. -/
theorem expire_keeps_iff {s : SessionStore C} (hs : s.Inv) (now : ℕ) :
    (∀ o ∈ s.outcomes, now < o.1 + terminalTtl → o ∈ (s.expire now).outcomes) ↔ s.KeepsScopes now := by
  constructor
  · rintro hkeeps id scope hid ⟨r, hr, t, ht, hyoung⟩
    have hout := hkeeps (t, id, r.seq) (mem_outcomes.2 ⟨scope, hid, r, hr, ht, rfl⟩) hyoung
    obtain ⟨scope', hid', -⟩ := mem_outcomes.1 hout
    rw [get_expire, hid, Option.map_some, Option.filter_eq_some_iff] at hid'
    obtain ⟨heq, hretained⟩ := hid'
    obtain rfl := Option.some.inj heq
    exact (retained_iff (hs.ordered id scope hid) now).1 hretained
  · rintro hscopes ⟨t, id, n⟩ hout hyoung
    obtain ⟨scope, hid, r, hr, ht, rfl⟩ := mem_outcomes.1 hout
    have hretained := (retained_iff (hs.ordered id scope hid) now).2
      (hscopes id scope hid ⟨r, hr, t, ht, hyoung⟩)
    refine mem_outcomes.2 ⟨{ scope with records := scope.records.filter (unexpired now) }, ?_, r,
      List.mem_filter.2 ⟨hr, unexpired_of_lt ht hyoung⟩, ht, rfl⟩
    rw [get_expire, hid, Option.map_some, Option.filter_eq_some_iff]
    exact ⟨rfl, hretained⟩

theorem Holds.expire {s : SessionStore C} (hs : s.Inv) {id : String} {seq t now : ℕ} {state : OperationState}
    (h : s.Holds id seq state t) (hscopes : s.KeepsScopes now) (hyoung : now < t + terminalTtl) :
    (s.expire now).Holds id seq state t :=
  h.of_prunes (s.prunes_expire now) hs.ordered ((expire_keeps_iff hs now).2 hscopes _ h.mem_outcomes hyoung)

/-- A terminal record is not the one a completion settles. -/
theorem Completion.holds_settled {s : SessionStore C} {id id' : String} {seq n t now : ℕ}
    {state state' : OperationState} {scope : Scope C} {l l' : List (Record C)} {r : Record C}
    (hc : Completion s id' n state' now scope l r l') (hs : s.Inv) (h : s.Holds id seq state t) :
    (s.settled id' n state' now).Holds id seq state t := by
  obtain ⟨scope', hid, r', hr', hseq, hstate, ht⟩ := h
  by_cases heq : id = id'
  · subst heq
    obtain rfl := Option.some.inj (hc.here.symm.trans hid)
    have hterminal : r'.isTerminal = true := by
      rw [← (hs.ordered id scope hid).timed r' hr', ht]
      rfl
    refine ⟨_, hc.get_settled, r', ?_, hseq, hstate, ht⟩
    rw [hc.split, List.mem_append, List.mem_cons] at hr'
    rw [settledScope, List.mem_append, List.mem_cons]
    rcases hr' with hr' | rfl | hr'
    · exact .inl hr'
    · rw [Record.isTerminal, hc.pending] at hterminal
      cases hterminal
    · exact .inr (.inr hr')
  · exact ⟨scope', (hc.get_settled_of_ne heq).trans hid, r', hr', hseq, hstate, ht⟩

/-- Rewriting a scope keeps an outcome if no record of the scope goes. -/
theorem Holds.insert {s s' : SessionStore C} {id id' : String} {seq t : ℕ} {state : OperationState}
    {scope' : Scope C} (h : s.Holds id seq state t) (hs' : s'.scopes = s.scopes.insert id' scope')
    (hrecords : ∀ scope, s.scopes.get id' = some scope → scope.records ⊆ scope'.records) :
    s'.Holds id seq state t := by
  obtain ⟨scope, hid, r, hr, hseq, hstate, ht⟩ := h
  by_cases heq : id = id'
  · subst heq
    exact ⟨scope', by rw [hs', OrderedMap.get_insert_self], r, hrecords scope hid hr, hseq, hstate, ht⟩
  · exact ⟨scope, by rw [hs', OrderedMap.get_insert_of_ne _ heq, hid], r, hr, hseq, hstate, ht⟩

theorem Holds.detach {s : SessionStore C} {id : String} {seq t : ℕ} {state : OperationState}
    (h : s.Holds id seq state t) (connection now : ℕ) : (s.detach connection now).Holds id seq state t := by
  obtain ⟨scope, hid, r, hr, hfound⟩ := h
  refine ⟨_, by rw [SessionStore.detach, OrderedMap.get_mapValues, hid, Option.map_some], r, ?_, hfound⟩
  split_ifs
  · exact hr
  · exact hr

theorem Holds.openScope {s : SessionStore C} (hs : s.Inv) {id : String} {seq t now : ℕ} {state : OperationState}
    (h : s.Holds id seq state t) (hscopes : s.KeepsScopes now) (hyoung : now < t + terminalTtl)
    (old : Option String) (connection : ℕ) : (s.openScope old connection now).2.Holds id seq state t := by
  have hexpire := h.expire hs hscopes hyoung
  have hinv := expire_inv hs now
  cases old with
  | some old =>
    obtain heq | ⟨scope, hid, heq⟩ := (s.expire now).resume_cases old connection now
    · rw [SessionStore.openScope, heq]
      exact hexpire
    · rw [SessionStore.openScope, heq]
      refine hexpire.insert rfl fun scope' hid' => ?_
      obtain rfl := Option.some.inj (hid.symm.trans hid')
      exact List.Subset.refl _
  | none =>
    obtain ⟨error, heq⟩ | ⟨-, -, heq⟩ := (s.expire now).issue_cases connection now
    · rw [SessionStore.openScope, heq]
      exact hexpire
    · rw [SessionStore.openScope, heq]
      refine hexpire.insert rfl fun scope' hid' => ?_
      rw [hinv.next_unused] at hid'
      cases hid'

theorem complete_error {s : SessionStore C} {id : String} {seq : ℕ} {state : OperationState} {now : ℕ}
    {error : SessionError} (h : (s.complete id seq state now).1 = .error error) :
    (s.complete id seq state now).2 = s := by
  unfold complete at h ⊢
  cases hsize : outcomeSize state with
  | none => rfl
  | some size =>
    simp only [hsize] at h ⊢
    by_cases hbig : outcomeSizeLimit < size
    · rw [if_pos hbig]
    · rw [if_neg hbig] at h ⊢
      cases hid : s.scopes.get id with
      | none => rfl
      | some scope =>
        cases hset : settleFirst seq state now scope.records with
        | none => simp only [hset]
        | some records =>
          simp only [hid, hset] at h
          cases h

/-! ### Runs -/

variable [Candidate C]

/-- The time an operation is given. -/
def opTime : SessionOp C → ℕ
  | .openScope _ _ now | .detach _ now | .admitMutation _ _ _ now | .admitWithGate _ _ _ now _
  | .complete _ _ _ now | .expire now => now

/-- A completion spares the number it settles; expiry keeps every scope with a young outcome. -/
def Meets (s : SessionStore C) : SessionOp C → Prop
  | .complete id seq state now => (s.complete id seq state now).1 = .ok () → s.Spares id seq now
  | .detach _ _ => True
  | op => s.KeepsScopes (opTime op)

/-- Every step of a run meets its condition in the state it is taken from. -/
def Meeting : SessionStore C → List (SessionOp C) → Prop
  | _, [] => True
  | s, op :: ops => s.Meets op ∧ (s.step op).Meeting ops

/-- A completion takes its scope or the store over its bound and gives this outcome up for it. -/
def Displaces (o : ℕ × String × ℕ) (s : SessionStore C) : SessionOp C → Prop
  | .complete id seq state now =>
    (s.complete id seq state now).1 = .ok () ∧ o ∈ (s.settled id seq state now).outcomes ∧
      o ∉ (s.complete id seq state now).2.outcomes ∧
      ((∃ scope, (s.settled id seq state now).scopes.get o.2.1 = some scope ∧
          maxTerminalScope < scope.terminalCount) ∨
        maxTerminal < (s.settled id seq state now).terminalCount)
  | _ => False

theorem step_complete (s : SessionStore C) (id : String) (seq : ℕ) (state : OperationState) (now : ℕ) :
    s.step (.complete id seq state now) = (s.complete id seq state now).2 := rfl

/-- A young outcome survives a step, or the step's completion displaces it. -/
theorem Holds.step {s : SessionStore C} (hs : s.Inv) {op : SessionOp C} {id : String} {seq t : ℕ}
    {state : OperationState} (h : s.Holds id seq state t) (hmeets : s.Meets op)
    (hyoung : opTime op < t + terminalTtl) :
    (s.step op).Holds id seq state t ∨ Displaces (t, id, seq) s op := by
  have hcall : ∀ id' n payload now gate, s.KeepsScopes now → now < t + terminalTtl →
      (s.call id' n payload now gate).1.2.Holds id seq state t := by
    intro id' n payload now gate hscopes hyoung
    have hexpire := h.expire hs hscopes hyoung
    cases hrefusal : (s.expire now).refusal id' n payload.normalized with
    | some answer =>
      rw [call_refused hrefusal]
      exact hexpire
    | none =>
      rw [call_asked hrefusal]
      cases gate with
      | false => exact hexpire
      | true =>
        obtain ⟨scope, hid, -⟩ := refusal_eq_none hrefusal
        simp only [if_true, reserve, hid]
        refine hexpire.insert rfl fun scope' hid' => ?_
        obtain rfl := Option.some.inj (hid.symm.trans hid')
        exact List.subset_append_left _ _
  cases op with
  | openScope old connection now => exact .inl (h.openScope hs hmeets hyoung old connection)
  | detach connection now => exact .inl (h.detach connection now)
  | admitMutation id' n payload now =>
    simp only [SessionStore.step, apply, admit_eq_call]
    exact .inl (hcall id' n payload now true hmeets hyoung)
  | admitWithGate id' n payload now gate => exact .inl (hcall id' n payload now gate hmeets hyoung)
  | expire now => exact .inl (h.expire hs hmeets hyoung)
  | complete id' n state' now =>
    rw [step_complete]
    cases hres : (s.complete id' n state' now).1 with
    | error error =>
      rw [complete_error hres]
      exact .inl h
    | ok =>
      obtain ⟨scope, l, r, l', hc⟩ := complete_ok hres
      have hsettled : (t, id, seq) ∈ (s.settled id' n state' now).outcomes :=
        (hc.mem_settled hs).2 (.inl h.mem_outcomes)
      by_cases hkept : (t, id, seq) ∈ (s.complete id' n state' now).2.outcomes
      · have hholds : (s.settled id' n state' now).Holds id seq state t := hc.holds_settled hs h
        have hprunes : Prunes (s.complete id' n state' now).2 (s.settled id' n state' now) := by
          rw [hc.after]
          exact (prunes_enforceTerminalBounds _).of_scopes rfl rfl rfl
        exact .inl (hholds.of_prunes hprunes (hc.ordered hs) hkept)
      · have holdest := ((hc.keeps_iff hs).2 (hmeets hres)).2 t id seq hsettled hkept
        refine .inr ⟨hres, hsettled, hkept, ?_⟩
        rcases holdest with ⟨scope', hid', hover, -⟩ | ⟨hover, -⟩
        · exact .inl ⟨scope', hid', hover⟩
        · exact .inr hover

/-- Over a run that meets its conditions a young outcome stays, or is displaced on the way. -/
theorem Holds.run {s : SessionStore C} (hs : s.Inv) {ops : List (SessionOp C)} {id : String} {seq t : ℕ}
    {state : OperationState} (h : s.Holds id seq state t) (hmeeting : s.Meeting ops)
    (hyoung : ∀ op ∈ ops, opTime op < t + terminalTtl) :
    (s.run ops).Holds id seq state t ∨ History.Happens SessionStore.step (Displaces (t, id, seq)) s ops := by
  induction ops generalizing s with
  | nil => exact .inl h
  | cons op ops ih =>
    obtain ⟨hmeets, hrest⟩ := hmeeting
    rcases h.step hs hmeets (hyoung op List.mem_cons_self) with hheld | hdisplaced
    · rcases ih (step_inv hs op) hheld hrest fun op' hop' => hyoung op' (List.mem_cons_of_mem _ hop')
        with hrun | ⟨pre, op', post, rfl, hdisplaced⟩
      · exact .inl hrun
      · exact .inr ⟨op :: pre, op', post, rfl, hdisplaced⟩
    · exact .inr ⟨[], op, ops, rfl, hdisplaced⟩

/-- What the store promises for the outcome of one completion of a run. -/
structure Retains (s : SessionStore C) (id : String) (seq : ℕ) (state : OperationState) (t : ℕ)
    (later : List (SessionOp C)) : Prop where
  known : (s.step (.complete id seq state t)).status id seq = .known state
  oldest : OldestFirst (s.settled id seq state t) (s.step (.complete id seq state t))
  stays : (∀ op ∈ later, opTime op < t + terminalTtl) →
    ((s.step (.complete id seq state t)).run later).status id seq = .known state ∨
      History.Happens SessionStore.step (Displaces (t, id, seq)) (s.step (.complete id seq state t)) later

/-- A completion stores its outcome and evicts oldest first exactly when the bounds spare it, expiry
keeps the young outcomes exactly when it keeps their scopes, and over a run whose every step does so an
outcome is known until its age or a later completion displaces it. -/
theorem outcome_retained {bootId : String} {s : SessionStore C} (h : new bootId = .ok s)
    (ops : List (SessionOp C)) :
    (∀ id seq state now, ((s.run ops).complete id seq state now).1 = .ok () →
      (((s.run ops).step (.complete id seq state now)).status id seq = .known state ∧
          OldestFirst ((s.run ops).settled id seq state now) ((s.run ops).step (.complete id seq state now)) ↔
        (s.run ops).Spares id seq now)) ∧
      (∀ now, (∀ o ∈ (s.run ops).outcomes, now < o.1 + terminalTtl → o ∈ ((s.run ops).expire now).outcomes) ↔
        (s.run ops).KeepsScopes now) ∧
      ∀ id seq state t later, ((s.run ops).complete id seq state t).1 = .ok () →
        (s.run ops).Meeting (.complete id seq state t :: later) → (s.run ops).Retains id seq state t later := by
  have hinv := run_inv (new_inv h) ops
  refine ⟨fun id seq state now hok => ?_, expire_keeps_iff hinv, fun id seq state t later hok hmeeting => ?_⟩
  · obtain ⟨scope, l, r, l', hc⟩ := complete_ok hok
    exact hc.keeps_iff hinv
  · obtain ⟨hmeets, hlater⟩ := hmeeting
    obtain ⟨scope, l, r, l', hc⟩ := complete_ok hok
    obtain ⟨hknown, holdest⟩ := (hc.keeps_iff hinv).2 (hmeets hok)
    have hafter := complete_inv hinv id seq state t
    refine ⟨hknown, holdest, fun hyoung => ?_⟩
    have hout := (hc.status hinv).1 hknown
    obtain ⟨scope', hid, r', hr', ht, hseq⟩ := mem_outcomes.1 hout
    obtain ⟨scope'', hid', r'', hr'', hseq'', hstate⟩ := (status_eq_known hafter.ordered).1 hknown
    obtain rfl := Option.some.inj (hid.symm.trans hid')
    obtain rfl := (hafter.ordered id scope' hid).eq_of_seq hr' hr'' (hseq.trans hseq''.symm)
    have hheld : ((s.run ops).step (.complete id seq state t)).Holds id seq state t :=
      ⟨scope', hid, r', hr', hseq, hstate, ht⟩
    rcases hheld.run hafter hlater hyoung with hrun | hdisplaced
    · exact .inl (hrun.status (run_inv hafter later))
    · exact .inr hdisplaced

def firstScope : String := "00112233445566778899aabbccddeeff:1"

/-- Number 1 stays pending while 32 later numbers complete. -/
def overflowing : List (SessionOp (List UInt8)) :=
  [.openScope none 1 0, .admitMutation firstScope 1 .shutdown 0] ++
    (List.range' 2 32).flatMap fun n =>
      [.admitMutation firstScope n .shutdown n, .complete firstScope n (.completed "{}") n]

/-- Number 1 is pending while its scope is detached for longer than idle scopes are kept. -/
def waiting : List (SessionOp (List UInt8)) :=
  [.openScope none 1 0, .admitMutation firstScope 1 .shutdown 0, .detach 1 0]

/-- The oldest number's outcome is gone as it is stored, with 32 older outcomes retained; and a
detached scope's outcome is gone at the next expiry, just after it was stored. -/
theorem outcome_lost :
    new "00112233445566778899aabbccddeeff" = .ok bootStore ∧
      ((bootStore.run overflowing).complete firstScope 1 (.completed "{}") 40).1 = .ok () ∧
      ¬ (bootStore.run overflowing).Retains firstScope 1 (.completed "{}") 40 [] ∧
      ((bootStore.run waiting).complete firstScope 1 (.completed "{}") idleScopeTtl).1 = .ok () ∧
      ¬ (bootStore.run waiting).Retains firstScope 1 (.completed "{}") idleScopeTtl [.expire idleScopeTtl] := by
  have hcrowded : ((bootStore.run overflowing).complete firstScope 1 (.completed "{}") 40).1 = .ok () ∧
      ((bootStore.run overflowing).complete firstScope 1 (.completed "{}") 40).2.status firstScope 1 =
        .unknown := by decide +kernel
  refine ⟨rfl, hcrowded.1, fun h => ?_, by decide +kernel, fun h => ?_⟩
  · have hknown := h.known
    rw [step_complete, hcrowded.2] at hknown
    cases hknown
  · have hgone : (((bootStore.run waiting).step (.complete firstScope 1 (.completed "{}") idleScopeTtl)).run
        [.expire idleScopeTtl]).status firstScope 1 = .scopeUnknown := by decide +kernel
    have hyoung : ∀ op ∈ [SessionOp.expire (C := List UInt8) idleScopeTtl],
        opTime op < idleScopeTtl + terminalTtl := by decide
    rcases h.stays hyoung with hknown | ⟨pre, op, post, heq, hdisplaced⟩
    · rw [hgone] at hknown
      cases hknown
    · have hop : op = .expire idleScopeTtl := by
        have hmem : op ∈ [SessionOp.expire (C := List UInt8) idleScopeTtl] := by rw [heq]; simp
        exact List.mem_singleton.1 hmem
      rw [hop] at hdisplaced
      exact hdisplaced

def admitted : List (SessionOp (List UInt8)) := [.openScope none 1 0, .admitMutation firstScope 1 .shutdown 0]

/-- A completed number stays known over a detachment and an expiry within its retention. -/
theorem outcome_retained_detached :
    (bootStore.run admitted).Retains firstScope 1 (.completed "{}") 1 [.detach 1 2, .expire (fromSecs 600)] := by
  have hnew : new "00112233445566778899aabbccddeeff" = .ok bootStore := rfl
  have hroom : (bootStore.run admitted).terminalCount = 0 := by decide +kernel
  refine (outcome_retained hnew admitted).2.2 firstScope 1 (.completed "{}") 1
    [.detach 1 2, .expire (fromSecs 600)] (by decide +kernel) ⟨fun _ scope hid => ?_, trivial, ?_, trivial⟩
  · have hle : scope.terminalCount ≤ (bootStore.run admitted).terminalCount :=
      OrderedMap.le_total _ Scope.terminalCount hid
    rw [hroom] at hle ⊢
    exact ⟨fun hfull => absurd (hfull.trans hle) (by decide), fun _ hfull => absurd hfull (by decide)⟩
  · have hactive : ∀ scope ∈ (((bootStore.run admitted).step (.complete firstScope 1 (.completed "{}") 1)).step
        (.detach 1 2)).scopes.values, fromSecs 600 < scope.lastActive + idleScopeTtl := by decide +kernel
    intro id scope hid _
    exact .inr (.inr (hactive scope ((OrderedMap.mem_values _).2 ⟨id, hid⟩)))

end SessionStore

end LabRuntime.Sessions
