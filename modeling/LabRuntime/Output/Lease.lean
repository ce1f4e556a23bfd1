import LabRuntime.Output.Send

/-! What every call keeps of an authority's identity, and of its profile within one epoch; who may
leave a lease. -/

namespace LabRuntime
namespace Permission

variable {c c' : Permission} {now : ℕ} {op : AuthorityOp} {r : Except Error AuthorityReply}

/-- One authority identity of one actuator. -/
def SameIdentity (c c' : Permission) : Prop := c'.instanceId = c.instanceId ∧ c'.actuator = c.actuator

theorem revoke_identity (fault : Bool) : SameIdentity c (c.revoke fault) := by
  unfold revoke
  split_ifs <;> exact ⟨rfl, rfl⟩

theorem Revocation.identity (h : c.Revocation op c') : SameIdentity c c' := by
  cases h with
  | requested fault => exact revoke_identity fault
  | uncertain => rw [distrust_eq]; exact revoke_identity true
  | failed => rw [distrust_eq]; exact revoke_identity (c := c.settle) true

theorem Change.identity (h : c.Change now op r c') : SameIdentity c c' := by
  cases h with
  | sent => split_ifs <;> exact ⟨rfl, rfl⟩
  | withdrawn => split_ifs <;> exact ⟨rfl, rfl⟩
  | completed _ _ _ settled => cases settled <;> exact ⟨rfl, rfl⟩
  | _ => exact ⟨rfl, rfl⟩

theorem Revocation.profile (h : c.Revocation op c') : c'.profile = c.profile := by
  cases h with
  | requested fault => exact revoke_profile
  | uncertain => rw [distrust_eq]; exact revoke_profile
  | failed => rw [distrust_eq]; exact revoke_profile (c := c.settle)

/-- A profile is bound under a new epoch only. -/
theorem Change.profile (h : c.Change now op r c') (he : c'.epoch = c.epoch) : c'.profile = c.profile := by
  cases h with
  | bound => exact absurd he (Nat.succ_ne_self _)
  | sent => split_ifs <;> rfl
  | withdrawn => split_ifs <;> rfl
  | completed _ _ _ settled => cases settled <;> rfl
  | _ => rfl

/-- Only an accepted acquisition gives a lease to an authority without one. -/
theorem Change.unleased (h : c.Change now op r c') (hl : c.lease = none)
    (hop : ∀ owner lifetime, op = .command (.acquire owner lifetime) → r.toOption = none) : c'.lease = none := by
  cases h with
  | armed => cases hop _ _ rfl
  | renewed _ holds => cases hl.symm.trans holds.stored
  | latched => rfl
  | sent => split_ifs <;> exact hl
  | withdrawn => split_ifs <;> exact hl
  | completed _ _ _ settled => cases settled <;> exact hl
  | _ => exact hl

end Permission

namespace OutputAuthority
open Permission

variable {s : OutputAuthority} {call : AuthorityCall}

theorem step_identity (s : OutputAuthority) (call : AuthorityCall) :
    SameIdentity s.permission (s.step call).permission := by
  by_cases h : s.Revokes call
  · exact (step_revocation h).identity
  · exact (step_change h).identity

theorem step_profile (he : (s.step call).permission.epoch = s.permission.epoch) :
    (s.step call).permission.profile = s.permission.profile := by
  by_cases h : s.Revokes call
  · exact (step_revocation h).profile
  · exact (step_change h).profile he

theorem step_unleased (hl : s.permission.lease = none)
    (hop : ∀ owner lifetime, call.op = .command (.acquire owner lifetime) → (s.apply call).1.toOption = none) :
    (s.step call).permission.lease = none := by
  by_cases h : s.Revokes call
  · exact (step_revocation h).drops.1
  · exact (step_change h).unleased hl hop

/-- A trip leaves no lease; an authority it cannot trip never had one. -/
theorem trip_unleased (hw : s.permission.Wf) (now : ℕ) : (s.step ⟨.command .trip, now⟩).permission.lease = none := by
  by_cases hp : s.snapshot.profile.isSome = true
  · exact (step_revocation (show s.Revokes ⟨.command .trip, now⟩ from hp)).drops.1
  · have hstate := (hw.unprofiled (Option.not_isSome_iff_eq_none.1 hp)).1
    refine step_unleased (hw.unarmed (by rw [hstate]; rfl)) fun owner lifetime h => by cases h

/-- An accepted acquisition arms exactly the lease it returns, within the bound profile. -/
theorem acquire_lease {owner : OutputOwner} {lifetime now : ℕ} {result : OutputResult}
    (h : (s.acquire owner lifetime now).1 = .ok result) : ∃ l p, result = .lease l ∧ s.snapshot.profile = some p ∧
      0 < lifetime ∧ lifetime ≤ p.maxLease ∧ l.actuator = s.actuator ∧ l.instanceId = s.instanceId ∧ l.owner = owner ∧
      (s.acquire owner lifetime now).2.permission = s.permission.arm l := by
  unfold OutputAuthority.acquire at h ⊢
  by_cases hs : s.snapshot.state ≠ .disarmed ∨ s.snapshot.safeConfirmed = false
  · rw [if_pos hs] at h
    cases h
  rw [if_neg hs] at h ⊢
  cases hp : s.profile with
  | error e => simp [hp] at h
  | ok p =>
    simp only [hp] at h ⊢
    by_cases hl : lifetime = 0 ∨ lifetime > p.maxLease
    · rw [if_pos hl] at h
      cases h
    rw [if_neg hl] at h ⊢
    cases hd : durationAdd now lifetime with
    | none => simp [hd] at h
    | some expires =>
      simp only [hd] at h ⊢
      by_cases he : s.snapshot.epoch < u64Max
      · rw [bumpEpoch_of_lt _ he] at h ⊢
        obtain rfl := Except.ok.inj h
        exact ⟨_, p, rfl, profile_ok.1 hp, by omega, by omega, rfl, rfl, rfl, rfl⟩
      · obtain ⟨hb, -⟩ := s.bumpEpoch_of_not_lt he
        rcases hr : s.bumpEpoch with ⟨r, t⟩
        rw [hr] at hb
        obtain rfl : r = _ := hb
        simp [hr] at h

/-- A renewal succeeds exactly for the current lease of an idle, unlatched authority, within the profile, by a
later expiry that is still a time. -/
theorem renew_ok_iff {l l' : OutputLease} {lifetime now : ℕ} : (s.renew l lifetime now).1 = .ok l' ↔
    s.checkLease l now = .ok () ∧
      ¬ (s.snapshot.state.armed = false ∨ s.snapshot.faultLatched = true ∨ s.safeObligationPending = true) ∧
      ¬ (s.pending.isSome ∨ s.transportReserved.isSome ∨ s.snapshot.inFlight.isSome) ∧
      (∃ p, s.profile = .ok p ∧ ¬ (lifetime = 0 ∨ lifetime > p.maxLease)) ∧
      durationAdd now lifetime = some (now + lifetime) ∧ l.expires < now + lifetime ∧
      l' = { l with expires := now + lifetime } := by
  unfold renew
  cases hc : s.checkLease l now with
  | error e => simp
  | ok u =>
    dsimp only
    by_cases ha : s.snapshot.state.armed = false ∨ s.snapshot.faultLatched = true ∨ s.safeObligationPending = true
    · rw [if_pos ha]
      simp [ha]
    rw [if_neg ha]
    by_cases hb : s.pending.isSome ∨ s.transportReserved.isSome ∨ s.snapshot.inFlight.isSome
    · rw [if_pos hb]
      simp [hb]
    rw [if_neg hb]
    cases hp : s.profile with
    | error e => simp
    | ok p =>
      dsimp only
      by_cases hl : lifetime = 0 ∨ lifetime > p.maxLease
      · rw [if_pos hl]
        refine iff_of_false (by simp) ?_
        rintro ⟨-, -, -, ⟨p', hp', hl'⟩, -⟩
        exact hl' (Except.ok.inj hp' ▸ hl)
      rw [if_neg hl]
      cases hd : durationAdd now lifetime with
      | none => simp
      | some expires =>
        obtain ⟨rfl, -⟩ := durationAdd_eq_some.1 hd
        dsimp only
        by_cases hx : now + lifetime ≤ l.expires
        · rw [if_pos hx]
          refine iff_of_false (by simp) ?_
          rintro ⟨-, -, -, -, -, hlt, -⟩
          exact absurd hlt (not_lt.2 hx)
        rw [if_neg hx]
        refine ⟨fun h => ⟨rfl, ha, hb, ⟨p, rfl, hl⟩, rfl, not_le.1 hx, (Except.ok.inj h).symm⟩, ?_⟩
        rintro ⟨-, -, -, -, -, -, rfl⟩
        rfl

/-- A renewal replaces the expiry of the lease and nothing else of it. -/
theorem renewNative_ok {l l' : OutputLease} {lifetime now : ℕ} (h : (s.renewNative l lifetime now).1 = .ok l') :
    l' = { l with expires := now + lifetime } := by
  unfold renewNative at h
  split_ifs at h
  obtain ⟨-, -, -, -, -, -, heq⟩ := renew_ok_iff.1 h
  exact heq

/-- A reservation carries the attempt it was made for and the actuator of the authority. -/
theorem reserved_intent {queueDeadline generation revision now : ℕ} {attemptId : Option ℕ} {i : OutputIntent}
    (h : (s.reserveTransport now queueDeadline attemptId generation revision).1 = .ok i) :
    i.attemptId = attemptId ∧ i.actuator = s.actuator ∧ i.bindingGeneration = generation ∧ i.mappingRevision = revision := by
  unfold reserveTransport at h
  dsimp only at h
  split_ifs at h
  · cases hp : s.profile with
    | error e => simp [hp] at h
    | ok p =>
      rw [hp] at h
      obtain rfl := Except.ok.inj h
      exact ⟨rfl, rfl, rfl, rfl⟩
  · cases hq : s.pending with
    | none => simp [hq] at h
    | some q =>
      simp only [hq] at h
      cases hc : s.checkLease q.lease now with
      | error e => simp [hc] at h
      | ok u =>
        simp only [hc] at h
        split_ifs at h
        obtain rfl := Except.ok.inj h
        exact ⟨rfl, rfl, rfl, rfl⟩

end OutputAuthority
end LabRuntime
