import LabRuntime.Recorder.Course

/-! Conservation of credit: what the owner is charged with is what its reservations hold and what is
sent and not yet receipted. -/

namespace LabRuntime.Recorder

variable {layout : FactLayout} {A : System layout → Act → Prop}

def RecorderLimits.credit (limits : RecorderLimits) : Credit := ⟨limits.groups, limits.records, limits.bytes⟩

namespace RecorderWorker

/-- The credit of the reserved live activation. -/
def liveCredit (o : RecorderWorker layout) : Credit := o.liveActivationReservation.elim 0 fun r => ⟨1, 1, r.bytes⟩

/-- The credit of the reserved fact groups. -/
def groupCredit (o : RecorderWorker layout) : Credit := Spans.sum (fun _ => factGroupCredit) o.reservedFactGroups

/-- The credit of all reservations. -/
def held (o : RecorderWorker layout) : Credit := o.liveCredit + o.groupCredit + o.unusedReference

/-- The charged credit is within the limits, and with the default limits so is what is still free of
the protected credit. -/
structure Funded (o : RecorderWorker layout) : Prop where
  limited : o.limits.credit.contains o.charged = true
  guarded : o.limits = .default → ∃ free, protectedCredit layout = o.referenceCredit + free ∧
    o.limits.credit.contains (o.charged + free) = true

theorem unusedReference_eq {o : RecorderWorker layout} {r : ReferenceReservation} (h : o.referenceCompletion = some r) :
    o.unusedReference = r.unused layout := by
  unfold unusedReference
  rw [h]
  rfl

/-- An ordinary group that fits can be charged. -/
theorem Fits.funded {o : RecorderWorker layout} {records bytes : ℕ} (h : o.Fits records bytes) (hfunded : o.Funded) :
    (o.charge ⟨1, records, bytes⟩).Funded := by
  obtain ⟨free, hfree, hfits⟩ := h
  have hlimited := Credit.contains_iff.1 hfunded.limited
  simp only [fitsBeside, Bool.and_eq_true, decide_eq_true_eq] at hfits
  simp only [RecorderLimits.credit] at hlimited
  refine ⟨?_, fun hlimits => ?_⟩
  · rw [Credit.contains_iff]
    simp only [charge, RecorderLimits.credit, Credit.add_groups, Credit.add_records, Credit.add_bytes]
    omega
  · obtain ⟨free', hprotected, hguarded⟩ := hfunded.guarded hlimits
    obtain rfl : free = free' := by
      have hdefault : o.limits = .default := hlimits
      rw [protectedFree, if_pos hdefault, hprotected, Credit.add_delta] at hfree
      exact (Option.some.inj hfree).symm
    refine ⟨free, hprotected, ?_⟩
    rw [Credit.contains_iff] at hguarded ⊢
    simp only [charge, RecorderLimits.credit, Credit.add_groups, Credit.add_records, Credit.add_bytes] at hguarded ⊢
    omega

/-- A Reference operation that fits can be charged. -/
theorem funded_of_referenceFits {o : RecorderWorker layout} {credit : Credit} {r : ReferenceReservation}
    (h : referenceFits o credit = true) (hfunded : o.Funded) :
    ({ o.charge credit with referenceCredit := o.referenceCredit + credit, referenceCompletion := some r } :
      RecorderWorker layout).Funded := by
  have hlimited := Credit.contains_iff.1 hfunded.limited
  simp only [referenceFits, Bool.and_eq_true, decide_eq_true_eq] at h
  simp only [RecorderLimits.credit] at hlimited
  refine ⟨?_, fun hlimits => ?_⟩
  · rw [Credit.contains_iff]
    simp only [charge, RecorderLimits.credit, Credit.add_groups, Credit.add_records, Credit.add_bytes]
    omega
  · obtain ⟨free, hprotected, hguarded⟩ := hfunded.guarded hlimits
    have hlimits' : o.limits = .default := hlimits
    rw [hprotected, Credit.add_delta] at h
    simp only [hlimits', ne_eq, not_true_eq_false, decide_false, Bool.false_or, Option.any_some] at h
    have hcontains := Credit.contains_iff.1 h.2
    refine ⟨⟨free.groups - credit.groups, free.records - credit.records, free.bytes - credit.bytes⟩, ?_, ?_⟩
    · rw [hprotected]
      ext <;> simp only [Credit.add_groups, Credit.add_records, Credit.add_bytes] <;> omega
    · rw [Credit.contains_iff] at hguarded ⊢
      simp only [charge, RecorderLimits.credit, Credit.add_groups, Credit.add_records, Credit.add_bytes] at hguarded ⊢
      omega

/-- Giving credit back, and at most as much of it as Reference credit, keeps the rest funded. -/
theorem Funded.release {o o' : RecorderWorker layout} {total reference : Credit} (hfunded : o.Funded)
    (hlimits : o'.limits = o.limits) (hcharged : o.charged = total + o'.charged)
    (hreference : o.referenceCredit = reference + o'.referenceCredit) (hpart : total.contains reference = true) :
    o'.Funded := by
  have hlimited := Credit.contains_iff.1 hfunded.limited
  have hle := Credit.contains_iff.1 hpart
  refine ⟨?_, fun hdefault => ?_⟩
  · rw [Credit.contains_iff, hlimits]
    simp only [hcharged, Credit.add_groups, Credit.add_records, Credit.add_bytes] at hlimited
    omega
  · obtain ⟨free, hprotected, hguarded⟩ := hfunded.guarded (hlimits ▸ hdefault)
    refine ⟨reference + free, ?_, ?_⟩
    · rw [hprotected, hreference]
      abel
    · rw [hlimits, Credit.contains_iff]
      rw [Credit.contains_iff] at hguarded
      simp only [hcharged, Credit.add_groups, Credit.add_records, Credit.add_bytes] at hguarded ⊢
      omega

theorem Funded.of_same {o o' : RecorderWorker layout} (hfunded : o.Funded) (hlimits : o'.limits = o.limits)
    (hcharged : o'.charged = o.charged) (hreference : o'.referenceCredit = o.referenceCredit) : o'.Funded :=
  ⟨by rw [hlimits, hcharged]; exact hfunded.limited, fun h => by
    rw [hlimits, hcharged, hreference]
    exact hfunded.guarded (hlimits ▸ h)⟩

end RecorderWorker

/-! ### The invariant -/

/-- The owner has applied receipts for `done`, and is charged for the rest and for what it holds. -/
structure Accounts (s : System layout) (done rest : List Message) : Prop where
  sent : s.storage.sent = done ++ rest
  settled : done <+: s.storage.settled
  persisted : s.owner.cached.persistedThroughSequence = Spans.total Message.records done
  released : s.owner.seenReleased = Spans.sum Message.credit done
  referenceReleased : s.owner.seenReferenceReleased = Spans.sum Message.referenceCredit done
  charged : s.owner.charged = s.owner.held + Spans.sum Message.credit rest
  reference : s.owner.referenceCredit = s.owner.unusedReference + Spans.sum Message.referenceCredit rest

structure Credited (s : System layout) : Prop extends Lifecycle s where
  accounts : ∃ done rest, Accounts s done rest
  funded : s.owner.Funded
  calm : s.panicked = false

theorem credited_opened (limits : RecorderLimits) (now : ℕ) : Credited (.opened limits now : System layout) where
  toLifecycle := lifecycle_opened limits now
  accounts := ⟨[], [], rfl, List.prefix_rfl, rfl, rfl, rfl, rfl, rfl⟩
  funded := by
    refine ⟨by simp [Credit.contains_iff, System.opened, RecorderWorker.opened], fun hlimits =>
      ⟨protectedCredit layout, (zero_add _).symm, ?_⟩⟩
    have hlimits : limits = .default := hlimits
    subst hlimits
    have hsmall := layout.small
    rw [Credit.contains_iff]
    simp only [System.opened, RecorderWorker.opened, RecorderLimits.credit, RecorderLimits.default, protectedCredit,
      zero_add, maxGroups, maxRecords, maxBytes, acceptedBytes, completionBytes]
    omega
  calm := rfl

/-- The Reference part of a message's credit. -/
theorem Message.credit_split (m : Message) : m.credit.contains m.referenceCredit = true := by
  cases m with
  | activation root lifecycle => cases lifecycle <;> simp [Message.credit, Message.referenceCredit, Credit.contains_iff]
  | _ => simp [Message.credit, Message.referenceCredit, Credit.contains_iff]

theorem sum_credit_split (ms : List Message) :
    (Spans.sum Message.credit ms).contains (Spans.sum Message.referenceCredit ms) = true := by
  induction ms with
  | nil => rfl
  | cons m ms ih =>
    have hm := Credit.contains_iff.1 m.credit_split
    rw [Credit.contains_iff] at ih ⊢
    simp only [Spans.sum_cons, Credit.add_groups, Credit.add_records, Credit.add_bytes]
    omega

variable {s s' : System layout} {done rest : List Message}

/-- Nothing the owner subtracts is missing. -/
theorem Accounts.sound (h : Accounts s done rest) (hfunded : s.owner.Funded) : s.owner.Sound := by
  have hsplit := Credit.contains_iff.1 (sum_credit_split rest)
  have hcharged := h.charged
  have hreference := h.reference
  unfold RecorderWorker.held at hcharged
  refine ⟨?_, ?_, fun hlimits => ?_, fun hgroups => ?_⟩
  · rw [hcharged, hreference, Credit.contains_iff]
    simp only [Credit.add_groups, Credit.add_records, Credit.add_bytes]
    omega
  · rw [hreference]
    exact Credit.contains_add _ _
  · obtain ⟨free, hprotected, -⟩ := hfunded.guarded hlimits
    rw [hprotected]
    exact Credit.contains_add _ _
  · obtain ⟨token, tokens, htokens⟩ := List.exists_cons_of_ne_nil hgroups
    have hgroup : s.owner.groupCredit = factGroupCredit + Spans.sum (fun _ => factGroupCredit) tokens := by
      unfold RecorderWorker.groupCredit
      rw [htokens, Spans.sum_cons]
    rw [hcharged, hgroup, Credit.contains_iff]
    simp only [Credit.add_groups, Credit.add_records, Credit.add_bytes]
    omega

/-! ### One move -/

namespace RecorderWorker

/-- The owner's books before and after it hands out `credit`, of which `reference` is Reference credit:
what the charge changes by, the reservations and the message account for. -/
structure Balanced (o o' : RecorderWorker layout) (credit reference : Credit) : Prop where
  charged : o.held + o'.charged = o'.held + credit + o.charged
  reference : o.unusedReference + o'.referenceCredit = o'.unusedReference + reference + o.referenceCredit
  funded : o'.Funded
  persisted : o'.cached.persistedThroughSequence = o.cached.persistedThroughSequence
  released : o'.seenReleased = o.seenReleased
  referenceReleased : o'.seenReferenceReleased = o.seenReferenceReleased

variable {o o' : RecorderWorker layout}

/-- Nothing of the books changes. -/
theorem balanced_of_same (hfunded : o.Funded) (hlimits : o'.limits = o.limits) (hcharged : o'.charged = o.charged)
    (hreference : o'.referenceCredit = o.referenceCredit) (hheld : o'.held = o.held)
    (hunused : o'.unusedReference = o.unusedReference)
    (hpersisted : o'.cached.persistedThroughSequence = o.cached.persistedThroughSequence)
    (hreleased : o'.seenReleased = o.seenReleased) (hseen : o'.seenReferenceReleased = o.seenReferenceReleased) :
    o.Balanced o' 0 0 := by
  refine ⟨?_, ?_, hfunded.of_same hlimits hcharged hreference, hpersisted, hreleased, hseen⟩
  · rw [hheld, hcharged, add_zero]
  · rw [hunused, hreference, add_zero]

theorem liveCredit_eq {reservation : LiveActivationReservation} (h : o.liveActivationReservation = some reservation) :
    o.liveCredit = ⟨1, 1, reservation.bytes⟩ := by
  unfold liveCredit
  rw [h]
  rfl

/-- A message takes the credit that the owner is charged or has held for it. -/
theorem Offer.balanced {m : Message} (h : o.Offer m o') (hfunded : o.Funded) : o.Balanced o' m.credit m.referenceCredit := by
  have hordinary : ∀ credit : Credit, o.held + (o.charged + credit) = o.held + credit + o.charged := fun credit => by abel
  cases h with
  | facts group submittedAt first last state nonempty bounded small fits next =>
    exact ⟨hordinary _, rfl, (fits.funded hfunded).of_same rfl rfl rfl, rfl, rfl, rfl⟩
  | operation operation bytes first last admissible charged fits next =>
    exact ⟨hordinary _, rfl, (fits.funded hfunded).of_same rfl rfl rfl, rfl, rfl, rfl⟩
  | annotation note bytes assigned last recording valid fits next =>
    exact ⟨hordinary _, rfl, (fits.funded hfunded).of_same rfl rfl rfl, rfl, rfl, rfl⟩
  | liveActivation root lifecycle reservation assigned last reserved valid next =>
    refine ⟨?_, rfl, hfunded.of_same rfl rfl rfl, rfl, rfl, rfl⟩
    change o.liveCredit + o.groupCredit + o.unusedReference + o.charged =
      0 + o.groupCredit + o.unusedReference + ⟨1, 1, reservation.bytes⟩ + o.charged
    rw [liveCredit_eq reserved]
    abel
  | referenceAccepted r accepted assigned last reserved unsent current next =>
    have hunused : o.unusedReference =
        ({ r with accepted := none } : ReferenceReservation).unused layout + ⟨1, 1, r.acceptedBytes⟩ := by
      rw [unusedReference_eq reserved]
      ext <;> simp [ReferenceReservation.unused, unsent]
    refine ⟨?_, ?_, hfunded.of_same rfl rfl rfl, rfl, rfl, rfl⟩
    · change o.liveCredit + o.groupCredit + o.unusedReference + o.charged = o.liveCredit + o.groupCredit +
        ({ r with accepted := none } : ReferenceReservation).unused layout + ⟨1, 1, r.acceptedBytes⟩ + o.charged
      rw [hunused]
      abel
    · rw [hunused]
      rfl
  | referenceCompletion r terminal records first last referenceCredit charged reserved current matching counted reference
      rest next =>
    have hunsent : r.accepted = none := by
      simp only [completionMatches, Bool.and_eq_true, Option.isNone_iff_eq_none] at matching
      exact matching.1.1.1.1.1.1
    have hrecords : records ≤ completionRecords := by
      rw [counted]
      unfold completionRecords
      split_ifs <;> omega
    have hunused : o.unusedReference =
        ⟨1, records, completionBytes layout⟩ + ⟨0, completionRecords - records, 0⟩ := by
      rw [unusedReference_eq reserved]
      ext
      · simp [ReferenceReservation.unused, hunsent]
      · simp only [ReferenceReservation.unused, hunsent, Credit.add_records, Option.isSome_none, Bool.false_eq_true,
          if_false]
        omega
      · simp [ReferenceReservation.unused, hunsent]
    have hcharged := Credit.delta_eq_some.1 rest
    have href := Credit.delta_eq_some.1 reference
    refine ⟨?_, ?_, ?_, rfl, rfl, rfl⟩
    · change o.liveCredit + o.groupCredit + o.unusedReference + charged = o.liveCredit + o.groupCredit + 0 +
        ⟨1, 1 + if r.fact.isSome = true then 1 else 0, completionBytes layout⟩ + o.charged
      rw [← counted, hunused, hcharged]
      abel
    · change o.unusedReference + referenceCredit = 0 +
        ⟨1, 1 + if r.fact.isSome = true then 1 else 0, completionBytes layout⟩ + o.referenceCredit
      rw [← counted, hunused, href]
      abel
    · exact hfunded.release rfl hcharged href (Credit.contains_iff.2 ⟨le_rfl, le_rfl, le_rfl⟩)
  | startupActivation | start | stop | probe | finish | gapSeal | clockAnchor | history | runs =>
    exact balanced_of_same hfunded rfl rfl rfl rfl rfl rfl rfl rfl

theorem Reserve.balanced (h : o.Reserve o') (hfunded : o.Funded) : o.Balanced o' 0 0 := by
  cases h with
  | live bytes generation state none fits =>
    refine ⟨?_, by rw [add_zero]; rfl, (fits.funded hfunded).of_same rfl rfl rfl, rfl, rfl, rfl⟩
    have hlive : o.liveCredit = 0 := by
      unfold liveCredit
      rw [none.1]
      rfl
    change o.liveCredit + o.groupCredit + o.unusedReference + (o.charged + ⟨1, 1, bytes⟩) =
      ⟨1, 1, bytes⟩ + o.groupCredit + o.unusedReference + 0 + o.charged
    rw [hlive]
    abel
  | group token next state fits =>
    refine ⟨?_, by rw [add_zero]; rfl, (fits.funded hfunded).of_same rfl rfl rfl, rfl, rfl, rfl⟩
    change o.liveCredit + o.groupCredit + o.unusedReference + (o.charged + factGroupCredit) = o.liveCredit +
      Spans.sum (fun _ => factGroupCredit) (token :: o.reservedFactGroups) + o.unusedReference + 0 + o.charged
    rw [Spans.sum_cons]
    unfold groupCredit
    abel
  | reference r accepted acceptedBytes admissible charged unsent fits =>
    have hfree : o.unusedReference = 0 := by
      simp only [referenceAdmissible, Bool.and_eq_true, Option.isNone_iff_eq_none] at admissible
      unfold unusedReference
      rw [admissible.1.1.1.1.1]
      rfl
    have hunused : r.unused layout = operationCredit layout acceptedBytes := by
      ext <;> simp [ReferenceReservation.unused, unsent, operationCredit, completionRecords, Nat.add_comm]
    refine ⟨?_, ?_, funded_of_referenceFits fits hfunded, rfl, rfl, rfl⟩
    · change o.liveCredit + o.groupCredit + o.unusedReference + (o.charged + operationCredit layout acceptedBytes) =
        o.liveCredit + o.groupCredit + r.unused layout + 0 + o.charged
      rw [hfree, hunused]
      abel
    · change o.unusedReference + (o.referenceCredit + operationCredit layout acceptedBytes) =
        r.unused layout + 0 + o.referenceCredit
      rw [hfree, hunused]
      abel

/-- Credit is given back, and at most as much of it as Reference credit. -/
structure Returns (o o' : RecorderWorker layout) : Prop where
  limits : o'.limits = o.limits
  returned : ∃ total reference : Credit, o.charged = total + o'.charged ∧
    o.referenceCredit = reference + o'.referenceCredit ∧ total.contains reference = true

theorem Returns.funded (h : o.Returns o') (hfunded : o.Funded) : o'.Funded := by
  obtain ⟨total, reference, hcharged, hreference, hpart⟩ := h.returned
  exact hfunded.release h.limits hcharged hreference hpart

/-- What is charged beside it does not matter. -/
theorem Returns.charge (h : o.Returns o') (spare : Credit) : (o.charge spare).Returns (o'.charge spare) := by
  obtain ⟨total, reference, hcharged, hreference, hpart⟩ := h.returned
  refine ⟨h.limits, total, reference, ?_, hreference, hpart⟩
  change o.charged + spare = total + (o'.charged + spare)
  rw [hcharged, add_assoc]

theorem returns_of_same (hlimits : o'.limits = o.limits) (hcharged : o'.charged = o.charged)
    (hreference : o'.referenceCredit = o.referenceCredit) : o.Returns o' :=
  ⟨hlimits, 0, 0, by rw [hcharged, zero_add], by rw [hreference, zero_add], by simp [Credit.contains_iff]⟩

/-- The saturating subtractions of a cancelled live activation subtract in full. -/
theorem liveCancelled_charged {reservation : LiveActivationReservation}
    (reserved : o.liveActivationReservation = some reservation) (hheld : o.charged.contains o.held = true) :
    o.charged = ⟨1, 1, reservation.bytes⟩ +
      ⟨o.charged.groups - 1, o.charged.records - 1, o.charged.bytes - reservation.bytes⟩ := by
  rw [held, liveCredit_eq reserved, Credit.contains_iff] at hheld
  simp only [Credit.add_groups, Credit.add_records, Credit.add_bytes] at hheld
  ext <;> simp only [Credit.add_groups, Credit.add_records, Credit.add_bytes] <;> omega

theorem Local.returns (h : o.Local o') (hheld : o.charged.contains o.held = true) : o.Returns o' := by
  cases h with
  | liveCancelled reservation reserved =>
    exact ⟨rfl, _, 0, liveCancelled_charged reserved hheld, (zero_add _).symm, by simp [Credit.contains_iff]⟩
  | groupCancelled token charged reserved rest =>
    exact ⟨rfl, _, 0, Credit.delta_eq_some.1 rest, (zero_add _).symm, by simp [Credit.contains_iff]⟩
  | referenceReleased r left referenceCredit charged released reserved split reference rest =>
    exact ⟨rfl, _, _, Credit.delta_eq_some.1 rest, Credit.delta_eq_some.1 reference,
      Credit.contains_iff.2 ⟨le_rfl, le_rfl, le_rfl⟩⟩
  | observed | configured | captured | jobs => exact returns_of_same rfl rfl rfl

theorem Local.balanced (h : o.Local o') (hfunded : o.Funded) (hheld : o.charged.contains o.held = true) :
    o.Balanced o' 0 0 := by
  have hfunded' := (h.returns hheld).funded hfunded
  cases h with
  | liveCancelled reservation reserved =>
    refine ⟨?_, by rw [add_zero]; rfl, hfunded', rfl, rfl, rfl⟩
    change o.liveCredit + o.groupCredit + o.unusedReference +
        ⟨o.charged.groups - 1, o.charged.records - 1, o.charged.bytes - reservation.bytes⟩ =
      0 + o.groupCredit + o.unusedReference + 0 + o.charged
    rw [liveCredit_eq reserved]
    conv_rhs => rw [liveCancelled_charged reserved hheld]
    abel
  | groupCancelled token charged reserved rest =>
    have hcharged := Credit.delta_eq_some.1 rest
    have hgroup : o.groupCredit = factGroupCredit + Spans.sum (fun _ => factGroupCredit) (o.reservedFactGroups.erase token) := by
      exact ((List.perm_cons_erase reserved).map _).sum_eq.trans (Spans.sum_cons _ token _)
    refine ⟨?_, by rw [add_zero]; rfl, hfunded', rfl, rfl, rfl⟩
    change o.liveCredit + o.groupCredit + o.unusedReference + charged = o.liveCredit +
      Spans.sum (fun _ => factGroupCredit) (o.reservedFactGroups.erase token) + o.unusedReference + 0 + o.charged
    rw [hgroup, hcharged]
    abel
  | referenceReleased r left referenceCredit charged released reserved split reference rest =>
    have hcharged := Credit.delta_eq_some.1 rest
    have href := Credit.delta_eq_some.1 reference
    have hunused := unusedReference_eq reserved
    refine ⟨?_, ?_, hfunded', rfl, rfl, rfl⟩
    · change o.liveCredit + o.groupCredit + o.unusedReference + charged = o.liveCredit + o.groupCredit +
        left.elim 0 (ReferenceReservation.unused layout) + 0 + o.charged
      rw [hunused, split, hcharged]
      abel
    · change o.unusedReference + referenceCredit = left.elim 0 (ReferenceReservation.unused layout) + 0 + o.referenceCredit
      rw [hunused, split, href]
      abel
  | captured r fact time reserved empty reference =>
    have hunused : ({ r with fact := some fact, capturedAt := time } : ReferenceReservation).unused layout =
        o.unusedReference := (unusedReference_eq reserved).symm
    refine balanced_of_same hfunded rfl rfl rfl ?_ hunused rfl rfl rfl
    change o.liveCredit + o.groupCredit + _ = o.liveCredit + o.groupCredit + o.unusedReference
    rw [← hunused]
    rfl
  | observed | configured | jobs => exact balanced_of_same hfunded rfl rfl rfl rfl rfl rfl rfl rfl

end RecorderWorker

/-- The books stay balanced with the messages sent. -/
theorem Accounts.balance {o : RecorderWorker layout} {more : List Message} (h : Accounts s done rest)
    (hbalanced : s.owner.Balanced o (Spans.sum Message.credit more) (Spans.sum Message.referenceCredit more))
    (howner : s'.owner = o) (hsent : s'.storage.sent = s.storage.sent ++ more)
    (hsettled : s.storage.settled <+: s'.storage.settled) : Accounts s' done (rest ++ more) := by
  subst howner
  refine ⟨by rw [hsent, h.sent, List.append_assoc], h.settled.trans hsettled, hbalanced.persisted.trans h.persisted,
    hbalanced.released.trans h.released, hbalanced.referenceReleased.trans h.referenceReleased, ?_, ?_⟩
  · have hcharged := hbalanced.charged
    rw [h.charged] at hcharged
    refine add_left_cancel (a := s.owner.held) ?_
    rw [hcharged, Spans.sum_append]
    abel
  · have hreference := hbalanced.reference
    rw [h.reference] at hreference
    refine add_left_cancel (a := s.owner.unusedReference) ?_
    rw [hreference, Spans.sum_append]
    abel

theorem Accounts.charged_contains (h : Accounts s done rest) : s.owner.charged.contains s.owner.held = true := by
  rw [h.charged]
  exact Credit.contains_add _ _

/-- Of `done` and `rest`, `covered` is settled and `left` is not: what was charged beyond `held` for
`rest` is, once `taken` is released, what is charged for `left`. -/
theorem Credit.moved {held done rest covered left taken charged : Credit} (hsplit : done + rest = covered + left)
    (hcovered : covered = done + taken) (hcharged : held + rest = taken + charged) : charged = held + left := by
  refine add_left_cancel (a := done + taken) ?_
  calc done + taken + charged
      = done + (taken + charged) := add_assoc _ _ _
    _ = held + (done + rest) := by rw [← hcharged]; abel
    _ = held + (done + taken + left) := by rw [hsplit, hcovered]
    _ = done + taken + (held + left) := by abel

/-- An adopted receipt moves what it covers out of the books. -/
theorem Accounts.adopt {receipt : Receipt} {charged referenceCredit : Credit} (h : Accounts s done rest)
    (hbacked : s.storage.Backed receipt) (hadopt : s.owner.Adoptable receipt charged referenceCredit) :
    ∃ done' rest', Accounts ({ s with owner := ({ s.owner with charged, referenceCredit } : RecorderWorker layout).adopt receipt } :
      System layout) done' rest' := by
  obtain ⟨covered, hfront, hcovers⟩ := hbacked
  obtain ⟨left, hsent⟩ := hfront.trans s.storage.settled_sent
  obtain ⟨total, reference, hreleased⟩ := hadopt.released
  have hsplit : ∀ weight : Message → Credit,
      Spans.sum weight done + Spans.sum weight rest = Spans.sum weight covered + Spans.sum weight left := fun weight => by
    rw [← Spans.sum_append, ← Spans.sum_append, ← h.sent, hsent]
  refine ⟨covered, left, hsent.symm, hfront, hcovers.persisted, hcovers.released, hcovers.referenceReleased, ?_, ?_⟩
  · refine @Credit.moved s.owner.held _ _ _ _ total _ (hsplit Message.credit) ?_ ?_
    · rw [← hcovers.released, ← h.released]
      exact hreleased.totalReleased
    · rw [← h.charged]
      exact hreleased.taken
  · refine @Credit.moved s.owner.unusedReference _ _ _ _ reference _ (hsplit Message.referenceCredit) ?_ ?_
    · rw [← hcovers.referenceReleased, ← h.referenceReleased]
      exact hreleased.referenceReleased
    · rw [← h.reference]
      exact hreleased.rest

theorem RecorderWorker.Adoptable.returns {o : RecorderWorker layout} {receipt : Receipt} {charged referenceCredit : Credit}
    (h : o.Adoptable receipt charged referenceCredit) :
    o.Returns (({ o with charged, referenceCredit } : RecorderWorker layout).adopt receipt) := by
  obtain ⟨total, reference, hreleased⟩ := h.released
  obtain ⟨ordinary, -, htotal, -⟩ := hreleased.ordinary
  exact ⟨rfl, total, reference, hreleased.taken, hreleased.rest, by rw [htotal]; exact Credit.contains_add _ _⟩

theorem Credited.of_balanced {o : RecorderWorker layout} (more : List Message) (h : Credited s) (hlifecycle : Lifecycle s')
    (hbalanced : s.owner.Balanced o (Spans.sum Message.credit more) (Spans.sum Message.referenceCredit more))
    (howner : s'.owner = o) (hsent : s'.storage.sent = s.storage.sent ++ more)
    (hsettled : s.storage.settled <+: s'.storage.settled) (hpanicked : s'.panicked = s.panicked) : Credited s' := by
  obtain ⟨done, rest, haccounts⟩ := h.accounts
  exact ⟨hlifecycle, ⟨_, _, haccounts.balance hbalanced howner hsent hsettled⟩, howner ▸ hbalanced.funded,
    hpanicked.trans h.calm⟩

theorem Credited.send {m : Message} {o : RecorderWorker layout} (h : Credited s)
    (hreceiving : s.storage.phase.receiving = true) (offer : s.owner.Offer m o) :
    Credited { s with owner := o, storage := { s.storage with queue := s.storage.queue ++ [m] } } := by
  refine h.of_balanced [m] (h.toLifecycle.send hreceiving offer) ?_ rfl (List.append_assoc _ _ _).symm List.prefix_rfl rfl
  have hbalanced := offer.balanced h.funded
  rw [Spans.sum_cons, Spans.sum_cons, Spans.sum_nil, Spans.sum_nil, add_zero, add_zero]
  exact hbalanced

theorem Micro.credited (h : Micro A s s') (hs : Credited s) : Credited s' := by
  have hlifecycle := h.lifecycle hs.toLifecycle
  obtain ⟨done, rest, haccounts⟩ := hs.accounts
  -- what leaves the books and the messages as they are
  have hsame : s.owner.Balanced s'.owner 0 0 → s'.storage.sent = s.storage.sent →
      s.storage.settled <+: s'.storage.settled → s'.panicked = s.panicked → Credited s' :=
    fun hbalanced hsent => hs.of_balanced [] hlifecycle hbalanced rfl (hsent.trans (List.append_nil _).symm)
  have hnone : s.owner.Balanced s.owner 0 0 := RecorderWorker.balanced_of_same hs.funded rfl rfl rfl rfl rfl rfl rfl rfl
  cases h with
  | worker move granted => exact hsame hnone (s.storage.work_sent move) (s.storage.work_settled move) rfl
  | sent message o offer granted receiving room => exact hs.send receiving offer
  | reserved o h granted => exact hsame (h.balanced hs.funded) rfl List.prefix_rfl rfl
  | changed o h => exact hsame (h.balanced hs.funded haccounts.charged_contains) rfl List.prefix_rfl rfl
  | adopted receipt charged referenceCredit shown h =>
    exact ⟨hlifecycle, haccounts.adopt (hs.receipted.shown shown) h, h.returns.funded hs.funded, hs.calm⟩
  | failed message cause granted | gapFailed gap fresh live valid granted =>
    exact hsame (RecorderWorker.balanced_of_same hs.funded rfl rfl rfl rfl rfl rfl rfl rfl) rfl List.prefix_rfl rfl
  | panicked h => exact absurd (haccounts.sound hs.funded) h
  | scheduled | refused | marked | slots => exact hsame hnone rfl List.prefix_rfl rfl

theorem Reachable.credited {limits : RecorderLimits} {now : ℕ} (h : Reachable limits now s) : Credited s :=
  h.keeps (fun _ _ => Micro.credited) (credited_opened limits now)

theorem Micro.limits (h : Micro A s s') : s'.owner.limits = s.owner.limits := by
  cases h with
  | sent message o offer granted receiving room => cases offer <;> rfl
  | reserved o h granted => cases h <;> rfl
  | changed o h => cases h <;> rfl
  | _ => rfl

theorem Reachable.limits {limits : RecorderLimits} {now : ℕ} (h : Reachable limits now s) : s.owner.limits = limits :=
  h.keeps (I := fun s => s.owner.limits = limits) (fun _ _ hstep hs => hstep.limits.trans hs) rfl

/-! ### Conservation -/

theorem Message.referenceCredit_eq_zero {m : Message} (h : m.records = 0) : m.referenceCredit = 0 := by
  cases m with
  | referenceAccepted => cases h
  | referenceCompletion fact => simp [Message.records] at h
  | _ => rfl

theorem Numbered.counted (h : Numbered s) : Spans.Counted Message.records Message.credit s.storage.sent :=
  fun m hm hrecords => Message.credit_eq_zero (h.solid m hm) hrecords

/-- What no applied receipt covers is what is above the persisted number. -/
theorem Accounts.above (h : Accounts s done rest) (hn : Numbered s) :
    Spans.above Message.credit Message.firstRecord Message.records s.owner.cached.persistedThroughSequence
        s.storage.sent = Spans.sum Message.credit rest ∧
      Spans.above Message.referenceCredit Message.firstRecord Message.records s.owner.cached.persistedThroughSequence
        s.storage.sent = Spans.sum Message.referenceCredit rest := by
  have hchained := hn.chained
  have hcounted := hn.counted
  rw [h.sent] at hchained hcounted
  rw [h.sent, h.persisted, ← Nat.zero_add (Spans.total Message.records done)]
  exact ⟨hchained.above_cut hcounted, hchained.above_cut fun _ _ hrecords => Message.referenceCredit_eq_zero hrecords⟩

/-- Credit is conserved: the owner is charged for its reservations and for the messages that no
applied receipt covers, and so for nothing once there are none of either. -/
theorem credit_conserved {limits : RecorderLimits} {now : ℕ} {s : System layout} (h : Reachable limits now s) :
    s.owner.charged = s.owner.held + Spans.above Message.credit Message.firstRecord Message.records
        s.owner.cached.persistedThroughSequence s.storage.sent ∧
      s.owner.referenceCredit = s.owner.unusedReference +
        Spans.above Message.referenceCredit Message.firstRecord Message.records
          s.owner.cached.persistedThroughSequence s.storage.sent ∧
      s.owner.seenReleased + s.owner.charged = s.owner.held + Spans.sum Message.credit s.storage.sent ∧
      (∀ receipt, s.storage.Shown receipt → ∃ covered, covered <+: s.storage.settled ∧
        receipt.released = Spans.sum Message.credit covered ∧
        receipt.referenceReleased = Spans.sum Message.referenceCredit covered) ∧
      limits.credit.contains s.owner.charged = true ∧ s.panicked = false ∧
      (s.owner.liveActivationReservation = none → s.owner.reservedFactGroups = [] → s.owner.referenceCompletion = none →
        (∀ m ∈ s.storage.sent, m.credit ≠ 0 → m.lastRecord ≤ s.owner.cached.persistedThroughSequence) →
        s.owner.charged = 0 ∧ s.owner.referenceCredit = 0) ∧
      ∀ status s', (poll : Step layout RecordingStatus).run s = (.ok status, s') → status.outstanding = s'.owner.charged := by
  have hcredited := h.credited
  obtain ⟨done, rest, haccounts⟩ := hcredited.accounts
  obtain ⟨habove, habove'⟩ := haccounts.above hcredited.numbered
  have hcharged := haccounts.charged
  have hreference := haccounts.reference
  refine ⟨habove ▸ hcharged, habove' ▸ hreference, ?_, fun receipt hshown => ?_, h.limits ▸ hcredited.funded.limited,
    hcredited.calm, fun hlive hgroups hcompletion hcovered => ?_, fun _ _ => poll_outstanding⟩
  · rw [haccounts.released, hcharged, haccounts.sent, Spans.sum_append]
    abel
  · obtain ⟨covered, hfront, hcovers⟩ := hcredited.receipted.shown hshown
    exact ⟨covered, hfront, hcovers.released, hcovers.referenceReleased⟩
  · have hheld : s.owner.held = 0 := by
      simp [RecorderWorker.held, RecorderWorker.liveCredit, RecorderWorker.groupCredit, RecorderWorker.unusedReference, hlive,
        hgroups, hcompletion]
    have hnone : Spans.sum Message.credit rest = 0 := by
      rw [← habove]
      refine List.sum_eq_zero fun credit hcredit => ?_
      obtain ⟨m, hm, rfl⟩ := List.mem_map.1 hcredit
      obtain ⟨hm, hlast⟩ := List.mem_filter.1 hm
      by_contra hcredit
      exact absurd (hcovered m hm hcredit) (Nat.not_le_of_lt (of_decide_eq_true hlast))
    have hzero : s.owner.charged = 0 := by rw [hcharged, hheld, hnone, add_zero]
    refine ⟨hzero, ?_⟩
    -- Reference credit is part of what is charged
    have hpart := Credit.contains_iff.1 (haccounts.sound hcredited.funded).reference
    rw [hzero] at hpart
    ext <;> simp only [Credit.zero_groups, Credit.zero_records, Credit.zero_bytes] at hpart ⊢ <;> omega

/-! ### A run -/

def heaterLayout : FactLayout := ⟨512, by decide⟩

/-- No interleaving and no contention. -/
def unhurried : Schedule := { moves := [], locks := [], times := [] }

/-- The worker serves one message. -/
def served : List Event := [.worker .receive, .worker (.transact none), .worker (.publish none), .worker (.inspect none)]

def retuneAccepted : OperationRecord :=
  { scope := ⟨"web", 0⟩, requestSeq := 1, command := "reference_retune", phase := "accepted", data := ⟨"{}", 0⟩
    outcomeBasis := "application_admission", time := 2 }

def startCooling : Event := .call unhurried (.requestStart "cooling" 0 { time := 0, data := { len := 2, parses := true } })

/-- A run with a committed group, an accepted Reference operation, a reserved group and one that the
worker has not taken. -/
def coolingRun : List Event :=
  startCooling :: served ++
    .call unhurried (.tryAdmitAt { facts := [.output 1, .controller 2], spare := 2 } 1) :: served ++
    [.call unhurried (.reserveReferenceOperation retuneAccepted), .call unhurried (.commitReferenceAcceptance retuneAccepted),
     .call unhurried .reserveFactGroup, .call unhurried (.tryAdmitAt { facts := [.output 3], spare := 0 } 3)]

def coolingSystem : System heaterLayout := History.after System.step (.opened .default 0) coolingRun

theorem credit_conserved_cooling : coolingSystem.owner.charged = ⟨4, 260, 543749⟩ ∧
    coolingSystem.owner.charged = coolingSystem.owner.held + Spans.above Message.credit Message.firstRecord Message.records
      coolingSystem.owner.cached.persistedThroughSequence coolingSystem.storage.sent ∧
    RecorderLimits.default.credit.contains coolingSystem.owner.charged = true ∧ coolingSystem.panicked = false := by
  have h := credit_conserved (reachable_after .default 0 coolingRun : Reachable .default 0 coolingSystem)
  exact ⟨by decide +kernel, h.1, h.2.2.2.2.1, h.2.2.2.2.2.1⟩

end LabRuntime.Recorder
