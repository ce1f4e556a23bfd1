import LabRuntime.Simple.Shapes

/-! The responses that the schema and the compiler have passed are those that Core's own check of a
plan passes: both fill the same bytes in the same order. -/

namespace LabRuntime.Simple

open Checks

/-! ### The loop of the compiler -/

/-- The comparisons that carry the instance. -/
def instancesOf (ms : List SimpleResponseMatch) : InstanceMatches :=
  (ms.filter fun m => m.kind == .«instance»).map fun m => (m.offset, m.expected)

theorem evidence_loop {address channel : UInt16} {comparisons : List ResponseMatchDto} {e e' : Evidence}
    (h : comparisons.foldlM (compileEvidenceMatch address channel) e = .ok e') :
    ∃ ms, e'.matches = e.matches ++ ms ∧ e'.instanceMatches = e.instanceMatches ++ instancesOf ms ∧
      List.Forall₂ (fun comparison m => compileMatch address channel comparison = .ok m) comparisons ms ∧
      ms.foldlM placeMatch e.occupied = .ok e'.occupied := by
  induction comparisons generalizing e with
  | nil =>
    obtain rfl := pure_ok.1 h
    exact ⟨[], by simp, by simp [instancesOf], .nil, rfl⟩
  | cons comparison comparisons ih =>
    rw [List.foldlM_cons] at h
    obtain ⟨e₁, hstep, hrest⟩ := bind_ok.1 h
    obtain ⟨m, hm, hstep⟩ := bind_ok.1 hstep
    obtain ⟨occupied, hplace, hstep⟩ := bind_ok.1 hstep
    obtain rfl := pure_ok.1 hstep
    obtain ⟨ms, hmatches, hinstances, hall, hfold⟩ := ih hrest
    refine ⟨m :: ms, ?_, ?_, .cons hm hall, ?_⟩
    · rw [hmatches, List.append_assoc, List.singleton_append]
    · rw [hinstances]
      cases hkind : m.kind <;> simp [instancesOf, hkind]
    · rw [List.foldlM_cons]
      exact bind_ok.2 ⟨occupied, hplace, hfold⟩

/-! ### One byte, three ways -/

theorem placeByte_occupies {kind : SimpleResponseMatchKind} {occupied occupied' : Occupied} {index : ℕ} {expected : UInt8}
    (h : placeByte kind occupied index expected = .ok occupied') :
    occupyByte kind occupied index expected = .ok occupied' := by
  unfold placeByte at h
  unfold occupyByte
  cases hslot : occupied[index]? with
  | none => rw [hslot] at h; cases h
  | some slot =>
    rw [hslot] at h
    cases slot with
    | none =>
      obtain rfl := Except.ok.inj h
      rfl
    | some prior =>
      obtain ⟨byte, priorKind⟩ := prior
      dsimp only [Option.join_some] at h ⊢
      split_ifs at h ⊢
      obtain rfl := Except.ok.inj h
      rfl

theorem placeByte_fixes {kind : SimpleResponseMatchKind} {occupied occupied' : Occupied} {index : ℕ} {expected : UInt8}
    (h : placeByte kind occupied index expected = .ok occupied') :
    fixByte kind occupied index expected = .ok occupied' := by
  unfold placeByte at h
  unfold fixByte
  cases hslot : occupied[index]? with
  | none => rw [hslot] at h; cases h
  | some slot =>
    obtain ⟨hlt, -⟩ := List.getElem?_eq_some_iff.1 hslot
    rw [hslot] at h
    rw [if_pos hlt]
    cases slot with
    | none => exact h
    | some prior =>
      obtain ⟨byte, priorKind⟩ := prior
      dsimp only at h
      split_ifs at h
      exact h

theorem placeByte_length {kind : SimpleResponseMatchKind} {occupied occupied' : Occupied} {index : ℕ} {expected : UInt8}
    (h : placeByte kind occupied index expected = .ok occupied') : occupied'.length = occupied.length := by
  have hfix := placeByte_fixes h
  unfold fixByte at hfix
  split_ifs at hfix
  rw [← Except.ok.inj hfix, List.length_set]

theorem placeMatch_occupies {exactLength : ℕ} {occupied occupied' : Occupied} {m : SimpleResponseMatch}
    (hexact : exactLength ≤ maxTransactionBytes) (hwidth : 1 ≤ m.expected.length ∧ m.expected.length ≤ 16)
    (hbound : m.offset + m.expected.length ≤ exactLength) (h : placeMatch occupied m = .ok occupied') :
    occupyMatch exactLength occupied m = .ok occupied' := by
  have hne : m.expected.isEmpty = false := by
    rw [List.isEmpty_eq_false_iff]
    exact List.length_pos_iff.1 hwidth.1
  have hadd : checkedAdd m.offset m.expected.length ≠ none := by
    have hmax : maxTransactionBytes ≤ u64Max := by decide
    unfold checkedAdd
    rw [if_pos (by omega)]
    exact Option.some_ne_none _
  unfold occupyMatch
  simp only [hne, not_lt.2 hwidth.2, decide_false, Bool.or_self, Bool.false_eq_true, if_false, if_neg hadd,
    if_neg (not_lt.2 hbound), gt_iff_lt]
  exact foldlM_repeats (fun occupied x _ occupied' hx => placeByte_occupies hx) h

theorem placeMatch_fixes {occupied occupied' : Occupied} {m : SimpleResponseMatch}
    (h : placeMatch occupied m = .ok occupied') : fixMatch occupied m = .ok occupied' :=
  foldlM_repeats (fun _ _ _ _ hx => placeByte_fixes hx) h

theorem placeMatch_length {occupied occupied' : Occupied} {m : SimpleResponseMatch}
    (h : placeMatch occupied m = .ok occupied') : occupied'.length = occupied.length :=
  foldlM_keeps (P := fun o => o.length = occupied.length) (fun _ _ _ _ hP hx => (placeByte_length hx).trans hP) h rfl

theorem placeMatches_length {ms : List SimpleResponseMatch} {occupied occupied' : Occupied}
    (h : ms.foldlM placeMatch occupied = .ok occupied') : occupied'.length = occupied.length :=
  foldlM_keeps (P := fun o => o.length = occupied.length) (fun _ _ _ _ hP hx => (placeMatch_length hx).trans hP) h rfl

/-- The compiler's ranges are Core's, where it does not leave the response. -/
theorem anyFixed_ok {occupied : Occupied} {start width : ℕ} {fixed : Bool}
    (h : anyFixed occupied start (start + width) = .ok fixed) : anyOccupied occupied start width = fixed := by
  unfold anyFixed at h
  split_ifs at h
  rw [← Except.ok.inj h]
  unfold anyOccupied
  rw [List.take_drop]

/-! ### Comparisons -/

/-- A comparison inside a response of `exactLength` bytes. -/
structure Within (exactLength : ℕ) (m : SimpleResponseMatch) : Prop where
  width : 1 ≤ m.expected.length ∧ m.expected.length ≤ 16
  bound : m.offset + m.expected.length ≤ exactLength

theorem saturating_le {n bound : ℕ} (hbound : bound ≤ maxTransactionBytes) (h : ¬ min n u64Max > bound) : n ≤ bound := by
  have hmax : maxTransactionBytes < u64Max := by decide
  omega

theorem within_of_shape {exactLength : ℕ} {address channel : UInt16} {comparison : ResponseMatchDto}
    {m : SimpleResponseMatch} {shape : ℕ × ℕ × Option (List UInt8)} (hexact : exactLength ≤ maxTransactionBytes)
    (hshape : matchShape exactLength comparison = .ok shape) (hm : compileMatch address channel comparison = .ok m) :
    Within exactLength m := by
  cases comparison with
  | literalMatch offset hex =>
    obtain ⟨bytes, hbytes, hshape⟩ := bind_ok.1 hshape
    obtain ⟨hbound, -⟩ := reject_bind.1 hshape
    obtain ⟨expected, hexpected, hm⟩ := bind_ok.1 hm
    obtain rfl := pure_ok.1 hm
    obtain rfl : bytes = expected := Except.ok.inj (hbytes.symm.trans hexpected)
    exact ⟨decodeHex_width hbytes, saturating_le hexact hbound⟩
  | instanceMatch offset field encoding =>
    obtain ⟨hbound, -⟩ := reject_bind.1 hshape
    obtain ⟨expected, hexpected, hm⟩ := bind_ok.1 hm
    obtain rfl := pure_ok.1 hm
    have hwidth := encodeInstance_width hexpected
    have hbounds := instanceWidth_bounds encoding
    refine ⟨⟨hwidth ▸ hbounds.1, ?_⟩, ?_⟩
    · dsimp only
      omega
    · dsimp only
      rw [hwidth]
      exact saturating_le hexact hbound

/-! ### Responses -/

/-- What the schema has established of one response. -/
structure ResponseShape (response : ResponseDto) (raw : SimpleScalarEncoding) : Prop where
  exact : 1 ≤ response.exactLength ∧ response.exactLength ≤ maxTransactionBytes
  count : response.matches.length ≤ maxResponseMatches
  extract : ∀ x ∈ response.extract, x.offset + raw.width ≤ response.exactLength
  comparison : ∀ x ∈ response.matches, ∃ shape, matchShape response.exactLength x = .ok shape
  checksum : ∀ c ∈ response.checksum, c.offset ≠ 0 ∧ c.offset ≤ maxSimpleChecksumInputBytes ∧
    c.offset + c.algorithm.width ≤ response.exactLength ∧
    ∀ x ∈ response.extract,
      rangesOverlap x.offset (x.offset + raw.width) c.offset (c.offset + c.algorithm.width) = false

theorem responseShape_ok {response : ResponseDto} {raw : SimpleScalarEncoding} {requireExtract : Bool}
    (h : validateResponseShape response raw requireExtract = .ok ()) :
    ResponseShape response raw ∧ response.extract.isSome = requireExtract := by
  unfold validateResponseShape at h
  simp only [bind_ok, reject_ok, exists_const, not_or, not_not, not_lt, gt_iff_lt] at h
  obtain ⟨⟨hexact, hcount⟩, hsome, -, hextract, ⟨ranges, evidence⟩, hloop, hchecksum⟩ := h
  refine ⟨⟨hexact, hcount, ?_, ?_, ?_⟩, hsome⟩
  · intro x hx
    rw [hx] at hextract
    simpa using hextract
  · intro x hx
    obtain ⟨t, t', hmark⟩ := foldlM_visits hloop x hx
    obtain ⟨shape, hshape, -⟩ := bind_ok.1 hmark
    exact ⟨shape, hshape⟩
  · intro c hc
    have hc := validateOptional_ok.1 hchecksum c hc
    obtain ⟨hbound, hc⟩ := reject_bind.1 hc
    have hoverlap := reject_ok.1 hc
    simp only [not_or, not_lt, gt_iff_lt] at hbound hoverlap
    refine ⟨hbound.1, hbound.2.1, saturating_le hexact.2 (not_lt.2 hbound.2.2), ?_⟩
    intro x hx
    rw [hx] at hoverlap
    simpa using hoverlap.1

theorem matches_within {response : ResponseDto} {raw : SimpleScalarEncoding} {address channel : UInt16}
    {ms : List SimpleResponseMatch} (hshape : ResponseShape response raw)
    (hms : List.Forall₂ (fun comparison m => compileMatch address channel comparison = .ok m) response.matches ms) :
    ∀ m ∈ ms, Within response.exactLength m := by
  intro m hm
  obtain ⟨i, hi, rfl⟩ := List.mem_iff_getElem.1 hm
  obtain ⟨hlength, hget⟩ := List.forall₂_iff_get.1 hms
  have hi' : i < response.matches.length := hlength ▸ hi
  obtain ⟨shape, hcomparison⟩ := hshape.comparison _ (List.get_mem response.matches ⟨i, hi'⟩)
  exact within_of_shape hshape.exact.2 hcomparison (hget i hi' hi)

/-- Core passes the comparisons and the checksum that the compiler emits. -/
theorem evidence_ok {response : ResponseDto} {raw : SimpleScalarEncoding} {address channel : UInt16}
    {ms : List SimpleResponseMatch} {instances : InstanceMatches} {checksum : Option SimpleResponseChecksum}
    (hshape : ResponseShape response raw)
    (h : compileResponseEvidence response address channel = .ok (ms, instances, checksum)) :
    ∃ occupied, validateResponseEvidence response.exactLength ms checksum = .ok occupied ∧
      ms.foldlM placeMatch (List.replicate response.exactLength none) = .ok occupied ∧
      instances = instancesOf ms ∧ ms.length = response.matches.length ∧ (∀ m ∈ ms, Within response.exactLength m) ∧
      checksum = response.checksum.map fun c => { offset := c.offset, algorithm := c.algorithm } := by
  obtain ⟨e, hloop, h⟩ := bind_ok.1 h
  obtain ⟨_, hchecksum, h⟩ := bind_ok.1 h
  obtain ⟨rfl, rfl, rfl⟩ : e.matches = ms ∧ e.instanceMatches = instances ∧ _ = checksum := by
    simpa using pure_ok.1 h
  obtain ⟨ms, hmatches, hinstances, hall, hplace⟩ := evidence_loop hloop
  rw [List.nil_append] at hmatches hinstances
  have hwithin := matches_within hshape hall
  have hlength : ms.length = response.matches.length := hall.length_eq.symm
  refine ⟨e.occupied, ?_, hmatches ▸ hplace, hmatches ▸ hinstances, hmatches ▸ hlength, hmatches ▸ hwithin, rfl⟩
  rw [hmatches]
  have hoccupy : ms.foldlM (occupyMatch response.exactLength) (List.replicate response.exactLength none) =
      .ok e.occupied :=
    foldlM_repeats (fun _ m hm _ hx =>
      placeMatch_occupies hshape.exact.2 (hwithin m hm).width (hwithin m hm).bound hx) hplace
  have hcount : ¬ ms.length > maxSimpleMatches := by
    have := hshape.count
    rw [← hlength] at this
    exact not_lt.2 this
  unfold validateResponseEvidence
  rw [if_neg (by simp only [not_or, not_not]; exact ⟨hshape.exact, hcount⟩)]
  refine bind_ok.2 ⟨e.occupied, hoccupy, ?_⟩
  cases hc : response.checksum with
  | none => rfl
  | some c =>
    obtain ⟨hpos, hmax, hbound, -⟩ := hshape.checksum c hc
    rw [hc] at hchecksum
    obtain ⟨-, hfixed⟩ := reject_bind.1 hchecksum
    obtain ⟨fixed, hfixed, hfalse⟩ := bind_ok.1 hfixed
    have hfalse : fixed = false := by simpa using reject_ok.1 hfalse
    have hadd : checkedAdd c.offset c.algorithm.width ≠ none := by
      have hexact := hshape.exact.2
      have hu64 : maxTransactionBytes ≤ u64Max := by decide
      unfold checkedAdd
      rw [if_pos (by omega)]
      exact Option.some_ne_none _
    have hfree := anyFixed_ok hfixed
    dsimp only [Option.map_some]
    dsimp only at hfree
    simp only [hadd, if_false, hpos, not_lt.2 hmax, not_lt.2 hbound, hfree, hfalse, Bool.false_eq_true, or_self]
    rfl

end LabRuntime.Simple
