import LabRuntime.Lib.Decimal
import LabRuntime.Sessions.Store

/-! What every operation keeps: numbers increase within a scope, every bound holds and the
retained credit is what the retained records charge. Expiry and both eviction loops only prune:
they drop records and scopes and renumber nothing. -/

namespace LabRuntime.Sessions

variable {C : Type}

/-! ### Pruning -/

def Scope.Shrinks (scope' scope : Scope C) : Prop :=
  scope'.highWater = scope.highWater ∧ scope'.records.Sublist scope.records

structure Scope.Ordered (scope : Scope C) : Prop where
  increasing : (scope.records.map Record.seq).Pairwise (· < ·)
  bounded : ∀ r ∈ scope.records, r.seq ≤ scope.highWater
  timed : ∀ r ∈ scope.records, r.terminalAt.isSome = r.isTerminal

/-- Two records of an ordered scope with one number are the same record. -/
theorem Scope.Ordered.eq_of_seq {scope : Scope C} (h : scope.Ordered) {r r' : Record C}
    (hr : r ∈ scope.records) (hr' : r' ∈ scope.records) (heq : r.seq = r'.seq) : r = r' := by
  have hnodup : (scope.records.map Record.seq).Nodup := h.increasing.imp fun hlt => hlt.ne
  exact List.inj_on_of_nodup_map hnodup hr hr' heq

theorem Scope.Shrinks.refl (scope : Scope C) : scope.Shrinks scope := ⟨rfl, List.Sublist.refl _⟩

theorem Scope.Shrinks.ordered {scope' scope : Scope C} (h : scope'.Shrinks scope) (ho : scope.Ordered) :
    scope'.Ordered :=
  ⟨ho.increasing.sublist (h.2.map _), fun r hr => h.1 ▸ ho.bounded r (h.2.subset hr),
    fun r hr => ho.timed r (h.2.subset hr)⟩

theorem Scope.Shrinks.pendingCount {scope' scope : Scope C} (h : scope'.Shrinks scope) :
    scope'.pendingCount ≤ scope.pendingCount := h.2.countP_le

theorem Scope.Shrinks.terminalCount {scope' scope : Scope C} (h : scope'.Shrinks scope) :
    scope'.terminalCount ≤ scope.terminalCount := h.2.countP_le

theorem Scope.Shrinks.charge {scope' scope : Scope C} (h : scope'.Shrinks scope) :
    scope'.charge ≤ scope.charge := (h.2.map _).sum_le_sum fun _ _ => Nat.zero_le _

namespace SessionStore

structure Prunes (s' s : SessionStore C) : Prop where
  bootId : s'.bootId = s.bootId
  nextScope : s'.nextScope = s.nextScope
  scopes : ∀ id scope', s'.scopes.get id = some scope' →
    ∃ scope, s.scopes.get id = some scope ∧ scope'.Shrinks scope
  totals : ∀ f : Scope C → ℕ, (∀ a b, a.Shrinks b → f a ≤ f b) → s'.scopes.total f ≤ s.scopes.total f

theorem Prunes.refl (s : SessionStore C) : Prunes s s :=
  ⟨rfl, rfl, fun _ scope h => ⟨scope, h, .refl scope⟩, fun _ _ => le_rfl⟩

theorem Prunes.trans {s₁ s₂ s₃ : SessionStore C} (h : Prunes s₁ s₂) (h' : Prunes s₂ s₃) : Prunes s₁ s₃ := by
  refine ⟨h.bootId.trans h'.bootId, h.nextScope.trans h'.nextScope, fun id scope hid => ?_, fun f hf =>
    (h.totals f hf).trans (h'.totals f hf)⟩
  obtain ⟨scope₂, hid₂, hs₂⟩ := h.scopes id scope hid
  obtain ⟨scope₃, hid₃, hs₃⟩ := h'.scopes id scope₂ hid₂
  exact ⟨scope₃, hid₃, hs₂.1.trans hs₃.1, hs₂.2.trans hs₃.2⟩

theorem Prunes.of_scopes {s' s t : SessionStore C} (h : Prunes s t) (hboot : s'.bootId = s.bootId)
    (hnext : s'.nextScope = s.nextScope) (hscopes : s'.scopes = s.scopes) : Prunes s' t :=
  ⟨hboot.trans h.bootId, hnext.trans h.nextScope, hscopes ▸ h.scopes, hscopes ▸ h.totals⟩

theorem prunes_mapValues (s : SessionStore C) {g : Scope C → Scope C} (hg : ∀ scope, (g scope).Shrinks scope) :
    Prunes { s with scopes := s.scopes.mapValues g } s := by
  refine ⟨rfl, rfl, fun id scope' h => ?_, fun f hf =>
    s.scopes.total_mapValues_le f g fun scope => hf _ _ (hg scope)⟩
  rw [OrderedMap.get_mapValues, Option.map_eq_some_iff] at h
  obtain ⟨scope, hid, rfl⟩ := h
  exact ⟨scope, hid, hg scope⟩

theorem prunes_retain (s : SessionStore C) (p : String → Scope C → Bool) :
    Prunes { s with scopes := s.scopes.retain p } s := by
  refine ⟨rfl, rfl, fun id scope h => ?_, fun f _ => s.scopes.total_retain_le f p⟩
  rw [OrderedMap.get_retain, Option.filter_eq_some_iff] at h
  exact ⟨scope, h.1, .refl scope⟩

theorem prunes_insert {s : SessionStore C} {id : String} {scope scope' : Scope C}
    (hid : s.scopes.get id = some scope) (h : scope'.Shrinks scope) :
    Prunes { s with scopes := s.scopes.insert id scope' } s := by
  refine ⟨rfl, rfl, fun id' scope'' hid' => ?_, fun f hf => ?_⟩
  · rw [OrderedMap.get_insert] at hid'
    split_ifs at hid' with heq
    · obtain rfl := Option.some.inj hid'
      exact ⟨scope, heq ▸ hid, h⟩
    · exact ⟨scope'', hid', .refl scope''⟩
  · have htotal := s.scopes.total_insert_of_get f scope' hid
    have hle := hf _ _ h
    show (s.scopes.insert id scope').total f ≤ _
    omega

theorem prunes_expire (s : SessionStore C) (now : ℕ) : Prunes (s.expire now) s := by
  let dropped (scope : Scope C) : Scope C := { scope with records := scope.records.filter (unexpired now) }
  have hdrop : Prunes { s with scopes := s.scopes.mapValues dropped } s :=
    s.prunes_mapValues fun scope => ⟨rfl, List.filter_sublist⟩
  have hretain := (prunes_retain _ fun _ => retained now).trans hdrop
  exact hretain.of_scopes rfl rfl rfl

theorem trimTerminal_sublist (fuel : ℕ) (records : List (Record C)) :
    (trimTerminal fuel records).Sublist records := by
  induction fuel generalizing records with
  | zero => exact List.Sublist.refl _
  | succ fuel ih =>
    rw [trimTerminal]
    split_ifs
    · exact (ih _).trans List.eraseP_sublist
    · exact List.Sublist.refl _

theorem prunes_evict (s : SessionStore C) (id : String) (seq : ℕ) : Prunes (s.evict id seq) s := by
  cases h : s.scopes.get id with
  | none =>
    rw [evict, h]
    exact Prunes.refl s
  | some scope =>
    rw [evict, h]
    exact prunes_insert h ⟨rfl, List.eraseP_sublist⟩

theorem prunes_evictTerminal (fuel : ℕ) (s : SessionStore C) : Prunes (evictTerminal fuel s) s := by
  induction fuel generalizing s with
  | zero => exact Prunes.refl s
  | succ fuel ih =>
    rw [evictTerminal]
    split_ifs
    · cases earliest s.outcomes with
      | none => exact Prunes.refl s
      | some outcome => exact (ih _).trans (s.prunes_evict _ _)
    · exact Prunes.refl s

theorem prunes_enforceTerminalBounds (s : SessionStore C) : Prunes s.enforceTerminalBounds s :=
  (prunes_evictTerminal _ _).trans
    (s.prunes_mapValues fun _ => ⟨rfl, trimTerminal_sublist _ _⟩)

/-! ### The eviction loops reach their bounds -/

theorem countP_eraseP {p : Record C → Bool} {l : List (Record C)} (h : 0 < l.countP p) :
    (l.eraseP p).countP p + 1 = l.countP p := by
  obtain ⟨r, hr, hp⟩ := List.countP_pos_iff.1 h
  obtain ⟨a, l₁, l₂, -, ha, rfl, heq⟩ := List.exists_of_eraseP hr hp
  rw [heq]
  simp only [List.countP_append, List.countP_cons, ha, if_true]
  omega

theorem trimTerminal_count {fuel : ℕ} {records : List (Record C)}
    (h : records.countP Record.isTerminal ≤ fuel) :
    (trimTerminal fuel records).countP Record.isTerminal ≤ maxTerminalScope := by
  induction fuel generalizing records with
  | zero => exact h.trans (Nat.zero_le _)
  | succ fuel ih =>
    rw [trimTerminal]
    split_ifs with hover
    · have hpos := countP_eraseP (p := Record.isTerminal) (lt_of_le_of_lt (Nat.zero_le _) hover)
      exact ih (by omega)
    · exact not_lt.1 hover

theorem mem_outcomes {s : SessionStore C} {time seq : ℕ} {id : String} :
    (time, id, seq) ∈ s.outcomes ↔
      ∃ scope, s.scopes.get id = some scope ∧ ∃ r ∈ scope.records, r.terminalAt = some time ∧ r.seq = seq := by
  simp only [outcomes, List.mem_flatMap, List.mem_filterMap, Option.map_eq_some_iff, Prod.mk.injEq]
  constructor
  · rintro ⟨⟨id', scope⟩, hmem, r, hr, t, ht, rfl, rfl, rfl⟩
    exact ⟨scope, s.scopes.mem_entries.1 hmem, r, hr, ht, rfl⟩
  · rintro ⟨scope, hid, r, hr, ht, rfl⟩
    exact ⟨(id, scope), s.scopes.mem_entries.2 hid, r, hr, time, ht, rfl, rfl, rfl⟩

theorem earliest_mem {l : List (ℕ × String × ℕ)} {best : ℕ × String × ℕ} (h : earliest l = some best) :
    best ∈ l := by
  induction l generalizing best with
  | nil => cases h
  | cons outcome rest ih =>
    rw [earliest] at h
    cases hrest : earliest rest with
    | none =>
      rw [hrest] at h
      obtain rfl := Option.some.inj h
      exact List.mem_cons_self
    | some best' =>
      rw [hrest] at h
      simp only at h
      split_ifs at h with hle
      · obtain rfl := Option.some.inj h
        exact List.mem_cons_self
      · obtain rfl := Option.some.inj h
        exact List.mem_cons_of_mem _ (ih hrest)

theorem earliest_eq_none {l : List (ℕ × String × ℕ)} (h : earliest l = none) : l = [] := by
  cases l with
  | nil => rfl
  | cons outcome rest =>
    rw [earliest] at h
    cases hrest : earliest rest with
    | none => rw [hrest] at h; cases h
    | some best =>
      rw [hrest] at h
      simp only at h
      split_ifs at h

/-- The oldest outcome is a terminal record and evicting it leaves one fewer. -/
theorem evict_terminalCount {s : SessionStore C} (ho : ∀ id scope, s.scopes.get id = some scope → scope.Ordered)
    {time seq : ℕ} {id : String} (h : (time, id, seq) ∈ s.outcomes) :
    (s.evict id seq).terminalCount + 1 = s.terminalCount := by
  obtain ⟨scope, hid, r, hr, ht, rfl⟩ := mem_outcomes.1 h
  have hordered := ho id scope hid
  obtain ⟨a, l₁, l₂, -, ha, hsplit, herase⟩ := List.exists_of_eraseP (p := (·.seq == r.seq)) hr (by simp)
  have hmem : a ∈ scope.records := by rw [hsplit]; simp
  obtain rfl : a = r := hordered.eq_of_seq hmem hr (by simpa using ha)
  have hterminal : a.isTerminal = true := by rw [← hordered.timed a hr, ht]; rfl
  have htotal := s.scopes.total_insert_of_get Scope.terminalCount
    { scope with records := scope.records.eraseP (·.seq == a.seq) } hid
  have hcount : scope.terminalCount = (l₁ ++ l₂).countP Record.isTerminal + 1 := by
    rw [Scope.terminalCount, hsplit]
    simp only [List.countP_append, List.countP_cons, hterminal, if_true]
    omega
  rw [evict, hid]
  simp only [terminalCount, Scope.terminalCount, herase] at htotal hcount ⊢
  omega

theorem outcomes_ne_nil {s : SessionStore C} (ho : ∀ id scope, s.scopes.get id = some scope → scope.Ordered)
    (h : 0 < s.terminalCount) : s.outcomes ≠ [] := by
  obtain ⟨n, hn, hpos⟩ : ∃ n ∈ s.scopes.values.map Scope.terminalCount, 0 < n := by
    by_contra hnone
    push Not at hnone
    have hzero : s.terminalCount = 0 := List.sum_eq_zero fun n hn => Nat.le_zero.1 (hnone n hn)
    omega
  obtain ⟨scope, hscope, rfl⟩ := List.mem_map.1 hn
  obtain ⟨id, hid⟩ := s.scopes.mem_values.1 hscope
  obtain ⟨r, hr, hterminal⟩ := List.countP_pos_iff.1 hpos
  obtain ⟨time, ht⟩ := Option.isSome_iff_exists.1 (((ho id scope hid).timed r hr).trans hterminal)
  exact List.ne_nil_of_mem (mem_outcomes.2 ⟨scope, hid, r, hr, ht, rfl⟩)

theorem Prunes.ordered {s' s : SessionStore C} (h : Prunes s' s)
    (ho : ∀ id scope, s.scopes.get id = some scope → scope.Ordered) :
    ∀ id scope, s'.scopes.get id = some scope → scope.Ordered := fun id scope hid => by
  obtain ⟨scope₀, hid₀, hs⟩ := h.scopes id scope hid
  exact hs.ordered (ho id scope₀ hid₀)

theorem evictTerminal_terminalCount {fuel : ℕ} {s : SessionStore C}
    (ho : ∀ id scope, s.scopes.get id = some scope → scope.Ordered) (h : s.terminalCount ≤ fuel) :
    (evictTerminal fuel s).terminalCount ≤ maxTerminal := by
  induction fuel generalizing s with
  | zero => exact h.trans (Nat.zero_le _)
  | succ fuel ih =>
    rw [evictTerminal]
    split_ifs with hover
    · cases hbest : earliest s.outcomes with
      | none =>
        have hpos : 0 < s.terminalCount := lt_of_le_of_lt (Nat.zero_le _) hover
        exact absurd (earliest_eq_none hbest) (outcomes_ne_nil ho hpos)
      | some best =>
        have hless := evict_terminalCount ho (earliest_mem hbest)
        exact ih ((s.prunes_evict _ _).ordered ho) (by omega)
    · exact not_lt.1 hover

theorem enforceTerminalBounds_terminalCount {s : SessionStore C}
    (ho : ∀ id scope, s.scopes.get id = some scope → scope.Ordered) :
    s.enforceTerminalBounds.terminalCount ≤ maxTerminal ∧
      ∀ id scope, s.enforceTerminalBounds.scopes.get id = some scope →
        scope.terminalCount ≤ maxTerminalScope := by
  let trimmed (scope : Scope C) : Scope C :=
    { scope with records := trimTerminal scope.terminalCount scope.records }
  let s₁ : SessionStore C := { s with scopes := s.scopes.mapValues trimmed }
  have htrim : Prunes s₁ s := s.prunes_mapValues fun _ => ⟨rfl, trimTerminal_sublist _ _⟩
  refine ⟨evictTerminal_terminalCount (htrim.ordered ho) le_rfl, fun id scope hid => ?_⟩
  obtain ⟨scope₁, hid₁, hs⟩ := (prunes_evictTerminal s₁.terminalCount s₁).scopes id scope hid
  rw [OrderedMap.get_mapValues, Option.map_eq_some_iff] at hid₁
  obtain ⟨scope₀, -, rfl⟩ := hid₁
  exact hs.terminalCount.trans (trimTerminal_count le_rfl)

/-! ### The invariant -/

theorem scopeName_injective (bootId : String) : (scopeName bootId).Injective := fun _ _ h =>
  Decimal.repr_injective ((String.append_right_inj (bootId ++ ":")).1 h)

/-- The bounds the store never exceeds. -/
structure Bounded (s : SessionStore C) : Prop where
  scopes : s.scopes.size ≤ maxScopes
  pending : s.pendingCount ≤ maxPending
  pendingScope : ∀ id scope, s.scopes.get id = some scope → scope.pendingCount ≤ maxPendingScope
  terminal : s.terminalCount ≤ maxTerminal
  terminalScope : ∀ id scope, s.scopes.get id = some scope → scope.terminalCount ≤ maxTerminalScope
  credit : s.retainedProvisioningBytes = s.scopes.total Scope.charge
  creditLimit : s.retainedProvisioningBytes ≤ provisioningRetainedBytes

structure Inv (s : SessionStore C) : Prop where
  ordered : ∀ id scope, s.scopes.get id = some scope → scope.Ordered
  named : ∀ id scope, s.scopes.get id = some scope → ∃ k < s.nextScope, id = scopeName s.bootId k
  bounded : s.Bounded

theorem new_inv {bootId : String} {s : SessionStore C} (h : new bootId = .ok s) : s.Inv := by
  unfold new at h
  split_ifs at h
  obtain rfl := Except.ok.inj h
  exact ⟨fun _ _ h => (by cases h), fun _ _ h => (by cases h), Nat.zero_le _, Nat.zero_le _,
    fun _ _ h => (by cases h), Nat.zero_le _, fun _ _ h => (by cases h), rfl, Nat.zero_le _⟩

theorem Prunes.inv {s' s : SessionStore C} (h : Prunes s' s) (hs : s.Inv)
    (hcredit : s'.retainedProvisioningBytes = s'.scopes.total Scope.charge) : s'.Inv := by
  have hb := hs.bounded
  refine ⟨h.ordered hs.ordered, fun id scope hid => ?_, ?_, ?_, fun id scope hid => ?_, ?_,
    fun id scope hid => ?_, hcredit, ?_⟩
  · obtain ⟨scope₀, hid₀, -⟩ := h.scopes id scope hid
    rw [h.nextScope, h.bootId]
    exact hs.named id scope₀ hid₀
  · have hsize := h.totals (fun _ => 1) fun _ _ _ => le_rfl
    rw [← OrderedMap.size_eq_total, ← OrderedMap.size_eq_total] at hsize
    exact hsize.trans hb.scopes
  · exact (h.totals _ fun _ _ => Scope.Shrinks.pendingCount).trans hb.pending
  · obtain ⟨scope₀, hid₀, hshrinks⟩ := h.scopes id scope hid
    exact hshrinks.pendingCount.trans (hb.pendingScope id scope₀ hid₀)
  · exact (h.totals _ fun _ _ => Scope.Shrinks.terminalCount).trans hb.terminal
  · obtain ⟨scope₀, hid₀, hshrinks⟩ := h.scopes id scope hid
    exact hshrinks.terminalCount.trans (hb.terminalScope id scope₀ hid₀)
  · have hcharge := h.totals _ fun _ _ => Scope.Shrinks.charge
    have hlimit := hb.creditLimit
    rw [hb.credit] at hlimit
    rw [hcredit]
    exact hcharge.trans hlimit

theorem expire_inv {s : SessionStore C} (hs : s.Inv) (now : ℕ) : (s.expire now).Inv :=
  (s.prunes_expire now).inv hs rfl

theorem prunes_detach (s : SessionStore C) (connection now : ℕ) : Prunes (s.detach connection now) s :=
  s.prunes_mapValues fun scope => by
    split_ifs
    · exact ⟨rfl, List.Sublist.refl _⟩
    · exact .refl scope

theorem detach_inv {s : SessionStore C} (hs : s.Inv) (connection now : ℕ) : (s.detach connection now).Inv := by
  refine (s.prunes_detach connection now).inv hs (hs.bounded.credit.trans ?_)
  refine (s.scopes.total_mapValues Scope.charge _ fun scope => ?_).symm
  split_ifs <;> rfl

/-- A resumption touches nothing but the attachment of the scope it names. -/
theorem resume_cases (s : SessionStore C) (old : String) (connection now : ℕ) :
    (s.resume old connection now).2 = s ∨ ∃ scope, s.scopes.get old = some scope ∧
      (s.resume old connection now).2 = { s with
        scopes := s.scopes.insert old { scope with attached := some connection, lastActive := now } } := by
  unfold resume
  cases splitOnce old with
  | none => exact .inl rfl
  | some parts =>
    by_cases hboot : parts.1 ≠ s.bootId
    · simp [hboot]
    · simp only [hboot, if_false]
      cases hid : s.scopes.get old with
      | none => exact .inl rfl
      | some scope =>
        simp only
        split_ifs
        · exact .inl rfl
        · exact .inr ⟨scope, rfl, by cases checkedAdd scope.highWater 1 <;> rfl⟩

theorem prunes_resume (s : SessionStore C) (old : String) (connection now : ℕ) :
    Prunes (s.resume old connection now).2 s := by
  obtain heq | ⟨scope, hid, heq⟩ := s.resume_cases old connection now
  · rw [heq]
    exact Prunes.refl s
  · rw [heq]
    exact prunes_insert hid ⟨rfl, List.Sublist.refl _⟩

theorem resume_inv {s : SessionStore C} (hs : s.Inv) (old : String) (connection now : ℕ) :
    (s.resume old connection now).2.Inv := by
  refine (s.prunes_resume old connection now).inv hs ?_
  obtain heq | ⟨scope, hid, heq⟩ := s.resume_cases old connection now
  · rw [heq]
    exact hs.bounded.credit
  · rw [heq]
    have htotal := s.scopes.total_insert_of_get Scope.charge
      { scope with attached := some connection, lastActive := now } hid
    have hcredit := hs.bounded.credit
    simp only [Scope.charge] at htotal hcredit ⊢
    omega

/-- What issuing does: nothing, or the next name of the counter with an empty scope. -/
theorem issue_cases (s : SessionStore C) (connection now : ℕ) :
    (∃ error, s.issue connection now = (.error error, s)) ∨
      s.scopes.size < maxScopes ∧ s.nextScope + 1 ≤ u64Max ∧
      s.issue connection now = (.ok ⟨scopeName s.bootId s.nextScope, 1⟩, { s with
        nextScope := s.nextScope + 1
        scopes := s.scopes.insert (scopeName s.bootId s.nextScope) ⟨some connection, 0, now, []⟩ }) := by
  unfold issue
  by_cases hfull : maxScopes ≤ s.scopes.size
  · exact .inl ⟨_, if_pos hfull⟩
  · rw [if_neg hfull]
    cases hnext : checkedAdd s.nextScope 1 with
    | none => exact .inl ⟨_, rfl⟩
    | some next =>
      obtain ⟨rfl, hmax⟩ := checkedAdd_eq_some.1 hnext
      exact .inr ⟨not_le.1 hfull, hmax, rfl⟩

/-- The next name of the counter is in use nowhere. -/
theorem Inv.next_unused {s : SessionStore C} (hs : s.Inv) :
    s.scopes.get (scopeName s.bootId s.nextScope) = none := by
  cases hid : s.scopes.get (scopeName s.bootId s.nextScope) with
  | none => rfl
  | some scope =>
    obtain ⟨k, hk, heq⟩ := hs.named _ _ hid
    exact absurd (scopeName_injective _ heq) hk.ne'

theorem issue_inv {s : SessionStore C} (hs : s.Inv) (connection now : ℕ) : (s.issue connection now).2.Inv := by
  obtain ⟨error, heq⟩ | ⟨hsize, -, heq⟩ := s.issue_cases connection now
  · rw [heq]
    exact hs
  rw [heq]
  have hb := hs.bounded
  have htotal := fun f => s.scopes.total_insert_of_none f ⟨some connection, 0, now, []⟩ hs.next_unused
  refine ⟨fun id scope hid => ?_, fun id scope hid => ?_, ?_, ?_, fun id scope hid => ?_, ?_,
    fun id scope hid => ?_, ?_, hb.creditLimit⟩
  · obtain ⟨-, rfl⟩ | hid := s.scopes.get_insert_cases hid
    · exact ⟨List.Pairwise.nil, fun r hr => (by cases hr), fun r hr => (by cases hr)⟩
    · exact hs.ordered id scope hid
  · obtain ⟨rfl, -⟩ | hid := s.scopes.get_insert_cases hid
    · exact ⟨s.nextScope, s.nextScope.lt_succ_self, rfl⟩
    · obtain ⟨k, hk, hname⟩ := hs.named id scope hid
      exact ⟨k, hk.trans s.nextScope.lt_succ_self, hname⟩
  · rw [OrderedMap.size_eq_total] at hsize ⊢
    rw [htotal]
    exact hsize
  · rw [pendingCount, htotal]
    exact hb.pending
  · obtain ⟨-, rfl⟩ | hid := s.scopes.get_insert_cases hid
    · exact Nat.zero_le _
    · exact hb.pendingScope id scope hid
  · rw [terminalCount, htotal]
    exact hb.terminal
  · obtain ⟨-, rfl⟩ | hid := s.scopes.get_insert_cases hid
    · exact Nat.zero_le _
    · exact hb.terminalScope id scope hid
  · rw [htotal]
    exact hb.credit

theorem openScope_inv {s : SessionStore C} (hs : s.Inv) (old : Option String) (connection now : ℕ) :
    (s.openScope old connection now).2.Inv := by
  cases old with
  | none => exact issue_inv (expire_inv hs now) connection now
  | some old => exact resume_inv (expire_inv hs now) old connection now

/-! ### Reservation -/

section Reservation

variable [Candidate C]

/-- What an admissible number has passed: it is the scope's next and every bound has room. -/
theorem refusal_eq_none {s : SessionStore C} {id : String} {seq : ℕ} {payload : Mutation C}
    (h : s.refusal id seq payload = none) :
    ∃ scope, s.scopes.get id = some scope ∧ (∀ r ∈ scope.records, r.seq ≠ seq) ∧
      seq = scope.highWater + 1 ∧ seq ≤ u64Max ∧ scope.pendingCount < maxPendingScope ∧
      s.pendingCount < maxPending ∧
      s.retainedProvisioningBytes + provisioningCharge payload ≤ provisioningRetainedBytes := by
  unfold refusal at h
  cases hid : s.scopes.get id with
  | none => rw [hid] at h; cases h
  | some scope =>
    rw [hid] at h
    simp only [refusalIn] at h
    cases hfind : scope.records.find? (·.seq == seq) with
    | some old =>
      rw [hfind] at h
      simp only at h
      split_ifs at h
    | none =>
      rw [hfind] at h
      simp only at h
      split_ifs at h with hlow hnext hbusy hover
      have hfresh : ∀ r ∈ scope.records, r.seq ≠ seq := by simpa using List.find?_eq_none.1 hfind
      obtain ⟨hseq, hmax⟩ := checkedAdd_eq_some.1 (not_not.1 hnext)
      have hroom : s.retainedProvisioningBytes + provisioningCharge payload ≤ provisioningRetainedBytes := by
        rw [overCredit] at hover
        cases hsum : checkedAdd s.retainedProvisioningBytes (provisioningCharge payload) with
        | none => simp [hsum] at hover
        | some total =>
          obtain ⟨rfl, -⟩ := checkedAdd_eq_some.1 hsum
          simpa [hsum] using hover
      exact ⟨scope, rfl, hfresh, hseq, hseq ▸ hmax, by omega, by omega, hroom⟩

theorem reserved_ordered {scope : Scope C} (h : scope.Ordered) (payload : Mutation C) (now : ℕ) :
    (reserved scope (scope.highWater + 1) payload now).Ordered := by
  refine ⟨?_, fun r hr => ?_, fun r hr => ?_⟩
  · simp only [reserved, List.map_append, List.map_cons, List.map_nil]
    refine List.pairwise_append.2 ⟨h.increasing, List.pairwise_singleton _ _, fun a ha b hb => ?_⟩
    obtain ⟨r, hr, rfl⟩ := List.mem_map.1 ha
    obtain rfl := List.mem_singleton.1 hb
    exact Nat.lt_succ_of_le (h.bounded r hr)
  · rcases List.mem_append.1 hr with hr | hr
    · exact (h.bounded r hr).trans (Nat.le_succ _)
    · obtain rfl := List.mem_singleton.1 hr
      exact le_rfl
  · rcases List.mem_append.1 hr with hr | hr
    · exact h.timed r hr
    · obtain rfl := List.mem_singleton.1 hr
      rfl

theorem reserve_inv {s : SessionStore C} (hs : s.Inv) {id : String} {seq : ℕ} {payload : Mutation C}
    (h : s.refusal id seq payload = none) (now : ℕ) : (s.reserve id seq payload now).Inv := by
  obtain ⟨scope, hid, -, rfl, -, hscope, hpending, hcredit⟩ := refusal_eq_none h
  have hb := hs.bounded
  have hreserve : s.reserve id (scope.highWater + 1) payload now = { s with
      scopes := s.scopes.insert id (reserved scope (scope.highWater + 1) payload now)
      retainedProvisioningBytes := s.retainedProvisioningBytes + provisioningCharge payload } := by
    rw [reserve, hid]
  have htotal := fun f => s.scopes.total_insert_of_get f
    (reserved scope (scope.highWater + 1) payload now) hid
  have hpend : (reserved scope (scope.highWater + 1) payload now).pendingCount = scope.pendingCount + 1 := by
    simp [Scope.pendingCount, reserved, Record.pending, OperationState.terminal]
  have hterm : (reserved scope (scope.highWater + 1) payload now).terminalCount = scope.terminalCount := by
    simp [Scope.terminalCount, reserved, Record.isTerminal, OperationState.terminal]
  have hcharge : (reserved scope (scope.highWater + 1) payload now).charge =
      scope.charge + provisioningCharge payload := by
    simp [Scope.charge, reserved]
  rw [hreserve]
  refine ⟨fun id' scope' hid' => ?_, fun id' scope' hid' => ?_, ?_, ?_, fun id' scope' hid' => ?_, ?_,
    fun id' scope' hid' => ?_, ?_, hcredit⟩
  · obtain ⟨-, rfl⟩ | hid' := s.scopes.get_insert_cases hid'
    · exact reserved_ordered (hs.ordered id scope hid) payload now
    · exact hs.ordered id' scope' hid'
  · obtain ⟨rfl, -⟩ | hid' := s.scopes.get_insert_cases hid'
    · exact hs.named id' scope hid
    · exact hs.named id' scope' hid'
  · have hsize := htotal fun _ => 1
    have hle := hb.scopes
    rw [OrderedMap.size_eq_total] at hle ⊢
    simp only at hsize ⊢
    omega
  · have hsum := htotal Scope.pendingCount
    rw [hpend] at hsum
    simp only [pendingCount] at hpending ⊢
    omega
  · obtain ⟨-, rfl⟩ | hid' := s.scopes.get_insert_cases hid'
    · rw [hpend]
      exact hscope
    · exact hb.pendingScope id' scope' hid'
  · have hsum := htotal Scope.terminalCount
    have hle := hb.terminal
    rw [hterm] at hsum
    simp only [terminalCount] at hle ⊢
    omega
  · obtain ⟨-, rfl⟩ | hid' := s.scopes.get_insert_cases hid'
    · rw [hterm]
      exact hb.terminalScope id scope hid
    · exact hb.terminalScope id' scope' hid'
  · have hsum := htotal Scope.charge
    have hold := hb.credit
    rw [hcharge] at hsum
    simp only at hold ⊢
    omega

end Reservation

/-! ### Completion -/

/-- The first record of the number was pending and carries the outcome now. -/
theorem settleFirst_eq_some {seq : ℕ} {state : OperationState} {now : ℕ} {records records' : List (Record C)}
    (h : settleFirst seq state now records = some records') :
    ∃ l r l', records = l ++ r :: l' ∧ r.seq = seq ∧ r.state.terminal = false ∧
      records' = l ++ { r with state := state, terminalAt := some now } :: l' := by
  induction records generalizing records' with
  | nil => cases h
  | cons r rest ih =>
    rw [settleFirst] at h
    split_ifs at h with hseq hterminal
    · obtain rfl := Option.some.inj h
      exact ⟨[], r, rest, rfl, by simpa using hseq, by simpa using hterminal, rfl⟩
    · obtain ⟨rest', hrest, rfl⟩ := Option.map_eq_some_iff.1 h
      obtain ⟨l, r', l', rfl, hseq', hpend, rfl⟩ := ih hrest
      exact ⟨r :: l, r', l', rfl, hseq', hpend, rfl⟩

/-- Settling keeps numbers, charges and the sum of pending and terminal records. -/
theorem settled_scope {scope : Scope C} {seq : ℕ} {state : OperationState} {now : ℕ}
    {records : List (Record C)} (hstate : state.terminal = true)
    (h : settleFirst seq state now scope.records = some records) (ho : scope.Ordered) :
    ({ scope with records } : Scope C).Ordered ∧
      ({ scope with records } : Scope C).pendingCount ≤ scope.pendingCount ∧
      ({ scope with records } : Scope C).charge = scope.charge := by
  obtain ⟨l, r, l', heq, -, hpend, rfl⟩ := settleFirst_eq_some h
  refine ⟨⟨?_, fun r' hr' => ?_, fun r' hr' => ?_⟩, ?_, ?_⟩
  · have hincreasing := ho.increasing
    rw [heq] at hincreasing
    simpa using hincreasing
  · simp only [List.mem_append, List.mem_cons] at hr'
    rcases hr' with hr' | rfl | hr'
    · exact ho.bounded r' (by simp [heq, hr'])
    · exact ho.bounded r (by simp [heq])
    · exact ho.bounded r' (by simp [heq, hr'])
  · simp only [List.mem_append, List.mem_cons] at hr'
    rcases hr' with hr' | rfl | hr'
    · exact ho.timed r' (by simp [heq, hr'])
    · exact hstate.symm
    · exact ho.timed r' (by simp [heq, hr'])
  · simp only [Scope.pendingCount, heq, List.countP_append, List.countP_cons, Record.pending, hstate,
      Bool.not_true, Bool.false_eq_true, if_false]
    omega
  · simp [Scope.charge, heq]

/-- A completion changes nothing, or settles one pending record and enforces the bounds. -/
theorem complete_cases (s : SessionStore C) (id : String) (seq : ℕ) (state : OperationState) (now : ℕ) :
    (s.complete id seq state now).2 = s ∨ ∃ scope records, state.terminal = true ∧
      s.scopes.get id = some scope ∧ settleFirst seq state now scope.records = some records ∧
      (s.complete id seq state now).2 = recountProvisioningCredit (enforceTerminalBounds
        { s with scopes := s.scopes.insert id { scope with records } }) := by
  unfold complete
  cases hsize : outcomeSize state with
  | none => exact .inl rfl
  | some size =>
    have hstate : state.terminal = true := by
      cases state with
      | accepted => cases hsize
      | completed _ => rfl
      | failed _ => rfl
      | failedWithResult _ _ => rfl
    dsimp only
    by_cases hbig : outcomeSizeLimit < size
    · rw [if_pos hbig]
      exact .inl rfl
    rw [if_neg hbig]
    cases hid : s.scopes.get id with
    | none => exact .inl rfl
    | some scope =>
      cases hset : settleFirst seq state now scope.records with
      | none =>
        left
        simp only [hset]
      | some records => exact .inr ⟨scope, records, hstate, rfl, hset, by simp only [hset]⟩

theorem complete_inv {s : SessionStore C} (hs : s.Inv) (id : String) (seq : ℕ) (state : OperationState)
    (now : ℕ) : (s.complete id seq state now).2.Inv := by
  obtain heq | ⟨scope, records, hstate, hid, hset, heq⟩ := s.complete_cases id seq state now
  · rw [heq]
    exact hs
  rw [heq]
  obtain ⟨hordered, hpend, hcharge⟩ := settled_scope hstate hset (hs.ordered id scope hid)
  let s₁ : SessionStore C := { s with scopes := s.scopes.insert id { scope with records } }
  have hb := hs.bounded
  have htotal := fun f => s.scopes.total_insert_of_get f { scope with records } hid
  have hord : ∀ id' scope', s₁.scopes.get id' = some scope' → scope'.Ordered := fun id' scope' hid' => by
    obtain ⟨-, rfl⟩ | hid' := s.scopes.get_insert_cases hid'
    · exact hordered
    · exact hs.ordered id' scope' hid'
  have hprunes := s₁.prunes_enforceTerminalBounds
  obtain ⟨hterminal, hterminalScope⟩ := enforceTerminalBounds_terminalCount hord
  have hnamed : ∀ id' scope', s₁.scopes.get id' = some scope' →
      ∃ k < s.nextScope, id' = scopeName s.bootId k := fun id' scope' hid' => by
    obtain ⟨rfl, -⟩ | hid' := s.scopes.get_insert_cases hid'
    · exact hs.named id' scope hid
    · exact hs.named id' scope' hid'
  refine ⟨hprunes.ordered hord, fun id' scope' hid' => ?_, ?_, ?_, fun id' scope' hid' => ?_,
    hterminal, hterminalScope, rfl, ?_⟩
  · obtain ⟨scope₀, hid₀, -⟩ := hprunes.scopes id' scope' hid'
    obtain ⟨k, hk, hname⟩ := hnamed id' scope₀ hid₀
    refine ⟨k, hk.trans_eq hprunes.nextScope.symm, hname.trans ?_⟩
    exact congrArg (scopeName · k) hprunes.bootId.symm
  · have hle := hprunes.totals (fun _ => 1) fun _ _ _ => le_rfl
    have hone := htotal fun _ => 1
    have hmax := hb.scopes
    rw [OrderedMap.size_eq_total] at hmax ⊢
    simp only [s₁, recountProvisioningCredit] at hle hone ⊢
    omega
  · have hle := hprunes.totals _ fun _ _ => Scope.Shrinks.pendingCount
    have hone := htotal Scope.pendingCount
    have hmax := hb.pending
    simp only [s₁, pendingCount, recountProvisioningCredit] at hle hone hmax ⊢
    omega
  · obtain ⟨scope₀, hid₀, hshrinks⟩ := hprunes.scopes id' scope' hid'
    refine hshrinks.pendingCount.trans ?_
    obtain ⟨-, rfl⟩ | hid₀ := s.scopes.get_insert_cases hid₀
    · exact hpend.trans (hb.pendingScope id scope hid)
    · exact hb.pendingScope id' scope₀ hid₀
  · have hle := hprunes.totals _ fun _ _ => Scope.Shrinks.charge
    have hone := htotal Scope.charge
    have hmax := hb.creditLimit
    have hcredit := hb.credit
    rw [hcharge] at hone
    simp only [s₁, recountProvisioningCredit] at hle hone ⊢
    omega

end SessionStore

end LabRuntime.Sessions
