import LabRuntime.Simple.Compiler

/-! What a definition that passed the schema is known to satisfy, and the widths its segments and
comparisons keep when they are compiled. -/

namespace LabRuntime.Simple

open Checks

theorem validateOptional_ok {α : Type} {check : α → Compiled Unit} {a : Option α} :
    validateOptional check a = .ok () ↔ ∀ x ∈ a, check x = .ok () := by
  cases a <;> simp [validateOptional]

/-! ### Bytes -/

theorem hexPairs_length (bytes : List UInt8) : (hexPairs bytes).length = bytes.length / 2 := by
  fun_induction hexPairs bytes with
  | case1 high low rest ih =>
    simp only [List.length_cons, ih]
    omega
  | case2 bytes h =>
    rcases bytes with _ | ⟨a, _ | ⟨b, rest⟩⟩
    · rfl
    · simp
    · exact (h a b rest rfl).elim

theorem decodeHex_width {value : String} {maximum : ℕ} {bytes : List UInt8} (h : decodeHex value maximum = .ok bytes) :
    1 ≤ bytes.length ∧ bytes.length ≤ maximum := by
  obtain ⟨hvalid, h⟩ := reject_bind.1 h
  obtain rfl := pure_ok.1 h
  simp only [not_or, not_lt] at hvalid
  obtain ⟨hne, heven, hmax, -⟩ := hvalid
  have hpos : 0 < (utf8 value).length := List.length_pos_of_ne_nil hne
  rw [hexPairs_length]
  omega

theorem encodeInstance_width {field : InstanceFieldDto} {encoding : InstanceEncodingDto} {address channel : UInt16}
    {bytes : List UInt8} (h : encodeInstance field encoding address channel = .ok bytes) :
    bytes.length = instanceWidth encoding := by
  unfold encodeInstance at h
  cases encoding with
  | u8 =>
    dsimp only at h
    split_ifs at h
    obtain rfl := Except.ok.inj h
    rfl
  | u16Le =>
    obtain rfl := Except.ok.inj h
    rfl
  | u16Be =>
    obtain rfl := Except.ok.inj h
    rfl

theorem instanceWidth_bounds (encoding : InstanceEncodingDto) : 1 ≤ instanceWidth encoding ∧ instanceWidth encoding ≤ 2 := by
  cases encoding <;> decide

/-! ### Parameters -/

/-- What the schema has established of one parameter. -/
structure Validated (p : ParameterDto) : Prop where
  id : p.parameterId ≠ 0
  shape : isObservation p = true ∨ isActuator p = true
  encoding : validateEncoding p.encoding = .ok ()
  read : ∀ r ∈ p.read, validateRead p.encoding.raw r = .ok ()
  write : ∀ w ∈ p.write, validateWrite p.encoding.raw w = .ok ()

theorem validateParameter_ok {seen seen' : Seen} {p : ParameterDto} (h : validateParameter seen p = .ok seen') :
    Validated p ∧ p.parameterId ∉ seen.ids ∧ seen'.ids = p.parameterId :: seen.ids ∧
      seen'.actuators = seen.actuators + (if isActuator p then 1 else 0) ∧
      (seen.actuators ≤ 1 → seen'.actuators ≤ 1) := by
  unfold validateParameter at h
  simp only [bind_ok, reject_ok, pure_ok, exists_const] at h
  obtain ⟨hidentity, _, -, _, -, _, -, hshape, hone, _, -, _, hencoding, _, hread, _, hwrite, rfl⟩ := h
  simp only [not_or] at hidentity
  refine ⟨⟨hidentity.1, ?_, hencoding, validateOptional_ok.1 hread, validateOptional_ok.1 hwrite⟩, hidentity.2.1, rfl,
    ?_, ?_⟩
  · cases hobs : isObservation p with
    | true => exact .inl rfl
    | false => exact .inr (by simpa [hobs] using hshape)
  · dsimp only
    split_ifs <;> rfl
  · intro hle
    dsimp only
    cases hact : isActuator p with
    | true => simpa [hact] using hone
    | false => simpa using hle

/-- The loop over the parameters: each is valid, their identities differ and at most one is an actuator. -/
theorem validateParameters_ok {ps : List ParameterDto} {seen seen' : Seen}
    (h : ps.foldlM validateParameter seen = .ok seen') :
    (∀ p ∈ ps, Validated p) ∧ (ps.map (·.parameterId)).Nodup ∧ (∀ p ∈ ps, p.parameterId ∉ seen.ids) ∧
      seen'.actuators = seen.actuators + ps.countP isActuator ∧ (seen.actuators ≤ 1 → seen'.actuators ≤ 1) := by
  induction ps generalizing seen with
  | nil =>
    obtain rfl := pure_ok.1 h
    exact ⟨by simp, List.nodup_nil, by simp, rfl, id⟩
  | cons p ps ih =>
    rw [List.foldlM_cons] at h
    obtain ⟨seen₁, hp, hps⟩ := bind_ok.1 h
    obtain ⟨hvalid, hfresh, hids, hcount, hone⟩ := validateParameter_ok hp
    obtain ⟨hvalid', hnodup, hfresh', hcount', hone'⟩ := ih hps
    simp only [hids, List.mem_cons, not_or] at hfresh'
    refine ⟨?_, ?_, ?_, ?_, fun hle => hone' (hone hle)⟩
    · intro q hq
      rcases List.mem_cons.1 hq with rfl | hq
      · exact hvalid
      · exact hvalid' q hq
    · rw [List.map_cons, List.nodup_cons]
      refine ⟨fun hmem => ?_, hnodup⟩
      obtain ⟨q, hq, heq⟩ := List.mem_map.1 hmem
      exact (hfresh' q hq).1 heq
    · intro q hq
      rcases List.mem_cons.1 hq with rfl | hq
      · exact hfresh
      · exact (hfresh' q hq).2
    · rw [hcount', hcount, List.countP_cons]
      omega

/-- Normalization respells the bounds and nothing else. -/
theorem normalizeParameter_ok {p q : ParameterDto} (h : normalizeParameter p = .ok q) :
    ∃ low high, q = { p with engineeringMin := low, engineeringMax := high } := by
  unfold normalizeParameter at h
  cases hvalue : p.valueType with
  | integer =>
    rw [hvalue] at h
    dsimp only at h
    split at h
    · cases h
    · cases h
    · exact ⟨_, _, (Except.ok.inj h).symm⟩
  | float =>
    rw [hvalue] at h
    dsimp only at h
    split at h
    · cases h
    · cases h
    · exact ⟨_, _, (Except.ok.inj h).symm⟩

/-! ### Templates -/

/-- What the compiler is handed for one parameter. -/
structure Template (t : CompiledParameterTemplate) : Prop where
  id : t.id ≠ 0
  shape : (t.role.observed = true ∧ t.access = .readOnly ∧ t.writeEffect = .none ∧ t.read.isSome = true ∧ t.write = none) ∨
    (t.role = .actuator ∧ (t.access = .readWrite ∧ t.read.isSome = true ∨ t.access = .writeOnly) ∧
      t.writeEffect = .outputAffecting ∧ t.valueSpec.valueType = .float ∧ t.write.isSome = true)
  encoding : validateEncoding t.encoding = .ok ()
  read : ∀ r ∈ t.read, validateRead t.encoding.raw r = .ok ()
  write : ∀ w ∈ t.write, validateWrite t.encoding.raw w = .ok ()

theorem isObservation_iff {p : ParameterDto} : isObservation p = true ↔
    p.role.core.observed = true ∧ p.access = .readOnly ∧ p.writeEffect = .none ∧ p.read.isSome = true ∧ p.write = none := by
  unfold isObservation
  cases p.role <;> simp [RoleDto.core, ParameterRole.observed, and_assoc]

theorem isActuator_iff {p : ParameterDto} : isActuator p = true ↔
    p.role = .actuator ∧ (p.access = .readWrite ∧ p.read.isSome = true ∨ p.access = .writeOnly) ∧
      p.writeEffect = .outputAffecting ∧ p.valueType = .float ∧ p.write.isSome = true := by
  unfold isActuator
  cases p.access <;> simp <;> tauto

theorem templateSpec_float {p : ParameterDto} {spec : ValueSpec} (h : templateSpec p = .ok spec)
    (hfloat : p.valueType = .float) : spec.valueType = .float := by
  unfold templateSpec at h
  rw [hfloat] at h
  dsimp only at h
  split at h
  · exact Except.ok.inj h ▸ rfl
  · cases h

theorem compileParameterTemplate_ok {p : ParameterDto} {t : CompiledParameterTemplate}
    (h : compileParameterTemplate p = .ok t) (hp : Validated p) :
    Template t ∧ t.id = p.parameterId ∧ (t.role = .actuator ↔ isActuator p = true) := by
  unfold compileParameterTemplate at h
  simp only [bind_ok, pure_ok] at h
  obtain ⟨spec, hspec, unit, -, rfl⟩ := h
  refine ⟨⟨hp.id, ?_, hp.encoding, hp.read, hp.write⟩, rfl, ?_⟩
  · rcases hp.shape with hobs | hact
    · obtain ⟨hrole, haccess, heffect, hread, hwrite⟩ := isObservation_iff.1 hobs
      exact .inl ⟨hrole, by rw [haccess]; rfl, by rw [heffect]; rfl, hread, hwrite⟩
    · obtain ⟨hrole, haccess, heffect, hfloat, hwrite⟩ := isActuator_iff.1 hact
      refine .inr ⟨by rw [hrole]; rfl, ?_, by rw [heffect]; rfl, templateSpec_float hspec hfloat, hwrite⟩
      rcases haccess with ⟨haccess, hread⟩ | haccess
      · exact .inl ⟨by rw [haccess]; rfl, hread⟩
      · exact .inr (by rw [haccess]; rfl)
  · constructor
    · intro hrole
      rcases hp.shape with hobs | hact
      · have hobserved := (isObservation_iff.1 hobs).1
        rw [show p.role.core = .actuator from hrole] at hobserved
        cases hobserved
      · exact hact
    · intro hact
      rw [(isActuator_iff.1 hact).1]
      rfl

/-- What the compiler is handed for a whole definition. -/
structure Definition (ts : List CompiledParameterTemplate) : Prop where
  count : ts ≠ [] ∧ ts.length ≤ maxParameters
  templates : ∀ t ∈ ts, Template t
  distinct : (ts.map (·.id)).Nodup
  actuator : ts.countP (fun t => t.role == .actuator) ≤ 1

/-- A validated parameter stays so when its bounds are respelled. -/
theorem Validated.normalized {p q : ParameterDto} (hp : Validated p) (h : normalizeParameter p = .ok q) :
    Validated q ∧ q.parameterId = p.parameterId ∧ isActuator q = isActuator p := by
  obtain ⟨low, high, rfl⟩ := normalizeParameter_ok h
  exact ⟨⟨hp.id, hp.shape, hp.encoding, hp.read, hp.write⟩, rfl, rfl⟩

theorem templates_ok {ps qs : List ParameterDto} {ts : List CompiledParameterTemplate}
    (hnormal : List.Forall₂ (fun p q => normalizeParameter p = .ok q) ps qs)
    (hcompile : List.Forall₂ (fun q t => compileParameterTemplate q = .ok t) qs ts) (hps : ∀ p ∈ ps, Validated p) :
    (∀ t ∈ ts, Template t) ∧ ts.map (·.id) = ps.map (·.parameterId) ∧
      ts.countP (fun t => t.role == .actuator) = ps.countP isActuator := by
  induction hnormal generalizing ts with
  | nil =>
    cases hcompile
    exact ⟨by simp, rfl, rfl⟩
  | cons hq _ ih =>
    cases hcompile with
    | cons ht hts =>
      obtain ⟨hvalid, hid, hact⟩ := (hps _ List.mem_cons_self).normalized hq
      obtain ⟨htemplate, htid, hrole⟩ := compileParameterTemplate_ok ht hvalid
      obtain ⟨htemplates, hids, hcount⟩ := ih hts fun p hp => hps p (List.mem_cons_of_mem _ hp)
      refine ⟨?_, ?_, ?_⟩
      · intro t hmem
        rcases List.mem_cons.1 hmem with rfl | hmem
        · exact htemplate
        · exact htemplates t hmem
      · rw [List.map_cons, List.map_cons, hids, htid, hid]
      · rw [List.countP_cons, List.countP_cons, hcount, ← hact]
        simp only [beq_iff_eq, hrole]

/-- Whatever the parser accepts is fit for the compiler. -/
theorem parse_ok {serde : Serializer} {bytes : ByteArray} {d : CompiledSimpleDefinition}
    (h : parseSimpleDefinition serde bytes = .ok d) : Definition d.parameters := by
  obtain ⟨-, h⟩ := reject_bind.1 h
  cases htext : String.fromUTF8? bytes with
  | none => rw [htext] at h; cases h
  | some text =>
    cases hdto : serde.fromStr text with
    | error error => rw [htext] at h; dsimp only at h; rw [hdto] at h; cases h
    | ok dto =>
      rw [htext] at h
      dsimp only at h
      rw [hdto] at h
      obtain ⟨_, hvalid, h⟩ := bind_ok.1 h
      obtain ⟨normal, hnormal, h⟩ := bind_ok.1 h
      obtain ⟨parameters, hparameters, rfl⟩ : ∃ qs, dto.parameters.mapM normalizeParameter = .ok qs ∧
          { dto with parameters := qs } = normal := by
        obtain ⟨qs, hqs, h⟩ := bind_ok.1 hnormal
        exact ⟨qs, hqs, pure_ok.1 h⟩
      cases hvec : serde.toVec { dto with parameters := parameters } with
      | none => rw [hvec] at h; cases h
      | some canonical =>
        rw [hvec] at h
        obtain ⟨-, h⟩ := reject_bind.1 h
        obtain ⟨ts, hts, h⟩ := bind_ok.1 h
        obtain rfl := pure_ok.1 h
        unfold validateDefinition at hvalid
        simp only [bind_ok, reject_ok, pure_ok, exists_const, not_or, not_lt] at hvalid
        obtain ⟨-, _, -, -, hcount, seen, hseen, -⟩ := hvalid
        obtain ⟨hvalidated, hnodup, -, hactuators, hone⟩ := validateParameters_ok hseen
        obtain ⟨htemplates, hids, hroles⟩ := templates_ok (mapM_ok.1 hparameters) (mapM_ok.1 hts) hvalidated
        have hlength : ts.length = dto.parameters.length := by
          rw [← List.length_map (·.id), hids, List.length_map]
        refine ⟨⟨?_, ?_⟩, htemplates, ?_, ?_⟩
        · exact List.length_pos_iff.1 (hlength ▸ List.length_pos_iff.2 hcount.1)
        · exact hlength ▸ hcount.2
        · exact hids ▸ hnodup
        · have hle := hone (by decide)
          rw [hactuators, Nat.zero_add] at hle
          exact hroles ▸ hle

end LabRuntime.Simple
