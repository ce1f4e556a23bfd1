import LabRuntime.Simple.Responses

/-! The compiler and Core agree: what the compiler emits for an accepted definition, Core registers. -/

namespace LabRuntime.Simple

open Checks

/-! ### Requests -/

theorem compileRequest_length {request : RequestDto} {address channel : UInt16} {value : Option (List UInt8)}
    {bytes : List UInt8} (h : compileRequest request address channel value = .ok bytes) :
    bytes ≠ [] ∧ bytes.length ≤ maxTransactionBytes := by
  obtain ⟨bytes', hloop, h⟩ := bind_ok.1 h
  obtain ⟨hne, h⟩ := reject_bind.1 h
  obtain rfl := pure_ok.1 h
  refine ⟨hne, foldlM_keeps (P := fun b => b.length ≤ maxTransactionBytes) ?_ hloop (Nat.zero_le _)⟩
  intro s segment _ s' _ hstep
  obtain ⟨t, -, hstep⟩ := bind_ok.1 hstep
  obtain ⟨hbound, hstep⟩ := reject_bind.1 hstep
  exact pure_ok.1 hstep ▸ not_lt.1 hbound

/-- One segment as Core counts it. -/
theorem segment_agrees {raw : SimpleScalarEncoding} {address channel : UInt16} {shape shape' : RequestShape}
    {segment : RequestSegmentDto} {rest : List RequestSegmentDto} {c : SimpleWriteSegment}
    {compiled : List SimpleWriteSegment} {width : ℕ} (hlength : rest.length = compiled.length)
    (hshape : segmentWidth raw shape rest segment = .ok (width, shape'))
    (hc : compileWriteSegment address channel segment = .ok c)
    (hadd : checkedAdd shape'.encodedLength width ≠ none) :
    SimpleWritePlan.requestLength raw (c :: compiled) shape.encodedLength shape.checksumSeen =
        SimpleWritePlan.requestLength raw compiled (shape'.encodedLength + width) shape'.checksumSeen ∧
      shape'.valueFields = shape.valueFields + (if c = .value then 1 else 0) := by
  have hsum : checkedAdd shape'.encodedLength width = some (shape'.encodedLength + width) := by
    unfold checkedAdd at hadd ⊢
    split_ifs at hadd ⊢
    · rfl
    · exact absurd rfl hadd
  cases segment with
  | literal hex =>
    obtain ⟨bytes, hbytes, hshape⟩ := bind_ok.1 hshape
    obtain ⟨rfl, rfl⟩ := Prod.mk.inj (pure_ok.1 hshape)
    obtain ⟨bytes', hbytes', hc⟩ := bind_ok.1 hc
    obtain rfl := pure_ok.1 hc
    obtain rfl : bytes = bytes' := Except.ok.inj (hbytes.symm.trans hbytes')
    have hne : bytes.isEmpty = false :=
      List.isEmpty_eq_false_iff.2 (List.length_pos_iff.1 (decodeHex_width hbytes).1)
    simp [SimpleWritePlan.requestLength, hne, hsum, bind, Except.bind, pure, Except.pure]
  | instanceField field encoding =>
    obtain ⟨rfl, rfl⟩ := Prod.mk.inj (Except.ok.inj hshape)
    obtain ⟨bytes, hbytes, hc⟩ := bind_ok.1 hc
    obtain rfl := pure_ok.1 hc
    have hwidth := encodeInstance_width hbytes
    have hne : bytes.isEmpty = false :=
      List.isEmpty_eq_false_iff.2 (List.length_pos_iff.1 (hwidth ▸ (instanceWidth_bounds encoding).1))
    dsimp only at hsum
    simp [SimpleWritePlan.requestLength, hne, hwidth, hsum, bind, Except.bind, pure, Except.pure]
  | valueField =>
    obtain ⟨rfl, rfl⟩ := Prod.mk.inj (Except.ok.inj hshape)
    obtain rfl := Except.ok.inj hc
    dsimp only at hsum
    simp [SimpleWritePlan.requestLength, hsum, bind, Except.bind, pure, Except.pure]
  | checksum algorithm =>
    obtain ⟨hlast, hshape⟩ := reject_bind.1 hshape
    obtain ⟨-, hshape⟩ := reject_bind.1 hshape
    obtain ⟨rfl, rfl⟩ := Prod.mk.inj (pure_ok.1 hshape)
    obtain rfl := Except.ok.inj hc
    simp only [not_or, not_not, Bool.not_eq_true] at hlast
    obtain ⟨hseen, rfl⟩ := hlast
    obtain rfl : compiled = [] := List.length_eq_zero_iff.1 hlength.symm
    dsimp only at hsum
    simp [SimpleWritePlan.requestLength, hseen, hsum, bind, Except.bind, pure, Except.pure]

/-- The schema and Core count one length, and one value field each. -/
theorem requestLength_agrees {raw : SimpleScalarEncoding} {address channel : UInt16}
    {segments : List RequestSegmentDto} {compiled : List SimpleWriteSegment} {shape shape' : RequestShape}
    (hcompiled : List.Forall₂ (fun segment c => compileWriteSegment address channel segment = .ok c) segments compiled)
    (h : requestShape raw segments shape = .ok shape') :
    SimpleWritePlan.requestLength raw compiled shape.encodedLength shape.checksumSeen = .ok shape'.encodedLength ∧
      shape'.valueFields = shape.valueFields + compiled.count .value := by
  induction hcompiled generalizing shape with
  | nil =>
    obtain rfl := Except.ok.inj h
    exact ⟨rfl, rfl⟩
  | @cons segment c segments compiled hc hrest ih =>
    obtain ⟨⟨width, shape₁⟩, hwidth, h⟩ := bind_ok.1 h
    obtain ⟨hadd, h⟩ := reject_bind.1 h
    obtain ⟨hlength, hvalue⟩ := segment_agrees hrest.length_eq hwidth hc hadd
    obtain ⟨hlength', hvalue'⟩ := ih h
    refine ⟨hlength.trans hlength', ?_⟩
    rw [hvalue', hvalue, List.count_cons]
    simp only [beq_iff_eq]
    omega

/-! ### Plans -/

/-- The transform that the schema has passed. -/
theorem transform_ok {encoding : EncodingDto} (h : validateEncoding encoding = .ok ()) :
    encoding.scale.isFinite = true ∧ (encoding.scale == F64.zero) = false ∧ encoding.offset.isFinite = true := by
  have h := reject_ok.1 h
  simp only [not_or, Bool.not_eq_false, Bool.not_eq_true] at h
  exact ⟨h.1, h.2.1, h.2.2.2.1⟩

theorem beq_of_finite {x : F64} (h : x.isFinite = true) : (x == x) = true := F64.beq_self (F64.isNan_of_isFinite h)

theorem responsePlan_ok {response : ResponseDto} {encoding : EncodingDto} {address channel : UInt16}
    {plan : SimpleResponsePlan} {instances : InstanceMatches} (hencoding : validateEncoding encoding = .ok ())
    (hshape : validateResponseShape response encoding.raw true = .ok ())
    (h : compileResponse response encoding address channel = .ok (plan, instances)) :
    plan.validate = .ok () ∧ plan.encoding = encoding.raw ∧ plan.scale = encoding.scale ∧
      plan.engineeringOffset = encoding.offset ∧ instances = instancesOf plan.matches := by
  obtain ⟨hshape, -⟩ := responseShape_ok hshape
  obtain ⟨hscale, hzero, hoffset⟩ := transform_ok hencoding
  obtain ⟨⟨ms, instances', checksum⟩, hevidence, h⟩ := bind_ok.1 h
  obtain ⟨occupied', hfix, h⟩ := bind_ok.1 h
  cases hextract : response.extract with
  | none => rw [hextract] at h; cases h
  | some extract =>
    rw [hextract] at h
    obtain ⟨fixed, hfixed, h⟩ := bind_ok.1 h
    obtain ⟨hfalse, h⟩ := reject_bind.1 h
    obtain ⟨rfl, rfl⟩ := Prod.mk.inj (pure_ok.1 h)
    obtain ⟨occupied, hvalid, hplace, hinstances, hlength, -, hchecksum⟩ := evidence_ok hshape hevidence
    refine ⟨?_, rfl, rfl, rfl, hinstances⟩
    obtain rfl : occupied = occupied' :=
      Except.ok.inj ((foldlM_repeats (fun _ _ _ _ hx => placeMatch_fixes hx) hplace).symm.trans hfix)
    have hfree := anyFixed_ok hfixed
    have hbound := hshape.extract extract hextract
    have hexact := hshape.exact
    have hu64 : maxTransactionBytes ≤ u64Max := by decide
    have hadd : checkedAdd extract.offset encoding.raw.width ≠ none := by
      unfold checkedAdd
      rw [if_pos (by omega)]
      exact Option.some_ne_none _
    have hcount : ¬ ms.length > maxSimpleMatches := not_lt.2 (hlength ▸ hshape.count)
    have hfalse : fixed = false := by simpa using hfalse
    unfold SimpleResponsePlan.validate
    rw [if_neg (by simp [hexact, hcount, hscale, hzero, hoffset])]
    simp only [hadd, if_false, not_lt.2 hbound]
    refine bind_ok.2 ⟨occupied, hvalid, ?_⟩
    rw [hfree, hfalse]
    simp only [Bool.false_eq_true, if_false]
    cases hc : response.checksum with
    | none =>
      rw [hchecksum, hc]
      rfl
    | some c =>
      obtain ⟨-, -, -, hapart⟩ := hshape.checksum c hc
      rw [hchecksum, hc]
      dsimp only [Option.map_some]
      rw [hapart extract hextract]
      rfl

theorem ackPlan_ok {response : ResponseDto} {raw : SimpleScalarEncoding} {address channel : UInt16}
    {plan : SimpleAckPlan} {instances : InstanceMatches}
    (hshape : validateResponseShape response raw false = .ok ()) (hmatches : response.matches ≠ [])
    (h : compileAck response address channel = .ok (plan, instances)) :
    plan.validate = .ok () ∧ instances = instancesOf plan.matches := by
  obtain ⟨hshape, -⟩ := responseShape_ok hshape
  obtain ⟨⟨ms, instances', checksum⟩, hevidence, h⟩ := bind_ok.1 h
  obtain ⟨rfl, rfl⟩ := Prod.mk.inj (pure_ok.1 h)
  obtain ⟨occupied, hvalid, -, hinstances, hlength, -, -⟩ := evidence_ok hshape hevidence
  have hne : ms.isEmpty = false := by
    rw [List.isEmpty_eq_false_iff]
    exact List.length_pos_iff.1 (hlength ▸ List.length_pos_iff.2 hmatches)
  refine ⟨bind_ok.2 ⟨occupied, hvalid, ?_⟩, hinstances⟩
  dsimp only
  rw [hne]
  rfl

/-- A read as Core holds it: a bounded request and a response plan that passes its check. -/
structure ReadPlan (encoding : EncodingDto) (plan : SimpleReadPlan) : Prop where
  request : plan.request ≠ [] ∧ plan.request.length ≤ maxTransactionBytes
  response : plan.response.validate = .ok ()
  transform : plan.response.encoding = encoding.raw ∧ plan.response.scale = encoding.scale ∧
    plan.response.engineeringOffset = encoding.offset

theorem readPlan_ok {read : ReadDto} {encoding : EncodingDto} {address channel : UInt16} {plan : SimpleReadPlan}
    {correlations : List InstanceMatches} (hencoding : validateEncoding encoding = .ok ())
    (hread : validateRead encoding.raw read = .ok ())
    (h : compileReadPlan encoding address channel read = .ok (plan, correlations)) :
    ReadPlan encoding plan ∧ correlations = [instancesOf plan.response.matches] := by
  obtain ⟨⟨plan', instances⟩, hcompile, h⟩ := bind_ok.1 h
  obtain ⟨rfl, rfl⟩ := Prod.mk.inj (pure_ok.1 h)
  obtain ⟨request, hrequest, hcompile⟩ := bind_ok.1 hcompile
  obtain ⟨⟨response, instances'⟩, hresponse, hcompile⟩ := bind_ok.1 hcompile
  obtain ⟨rfl, rfl⟩ := Prod.mk.inj (pure_ok.1 hcompile)
  obtain ⟨_, -, hshape⟩ := bind_ok.1 hread
  obtain ⟨hvalid, hraw, hscale, hoffset, hinstances⟩ := responsePlan_ok hencoding hshape hresponse
  exact ⟨⟨compileRequest_length hrequest, hvalid, hraw, hscale, hoffset⟩, by rw [hinstances]⟩

/-- An optional plan that was compiled from an optional description. -/
theorem compileOptional_ok {α β : Type} {compile : α → Compiled (β × List InstanceMatches)} {a : Option α}
    {b : Option β} {correlations : List InstanceMatches} (h : compileOptional compile a = .ok (b, correlations)) :
    (a = none ∧ b = none ∧ correlations = []) ∨ ∃ x y, a = some x ∧ b = some y ∧ compile x = .ok (y, correlations) := by
  cases a with
  | none =>
    obtain ⟨rfl, rfl⟩ := Prod.mk.inj (Except.ok.inj h)
    exact .inl ⟨rfl, rfl, rfl⟩
  | some x =>
    obtain ⟨⟨y, correlations'⟩, hx, h⟩ := bind_ok.1 h
    obtain ⟨rfl, rfl⟩ := Prod.mk.inj (pure_ok.1 h)
    exact .inr ⟨x, y, rfl, rfl, hx⟩

/-- The comparisons of a write plan that carry the instance, its readback's last. -/
def writeInstances (plan : SimpleWritePlan) : List InstanceMatches :=
  instancesOf plan.ack.matches :: (plan.readback.map fun readback => instancesOf readback.response.matches).toList

theorem writePlan_ok {write : WriteDto} {encoding : EncodingDto} {address channel : UInt16} {plan : SimpleWritePlan}
    {correlations : List InstanceMatches} (hencoding : validateEncoding encoding = .ok ())
    (hwrite : validateWrite encoding.raw write = .ok ())
    (h : compileWritePlan encoding address channel write = .ok (plan, correlations)) :
    plan.validate = .ok () ∧ plan.encoding = encoding.raw ∧ plan.scale = encoding.scale ∧
      plan.engineeringOffset = encoding.offset ∧ correlations = writeInstances plan := by
  obtain ⟨hscale, hzero, hoffset⟩ := transform_ok hencoding
  obtain ⟨segments, hsegments, h⟩ := bind_ok.1 h
  obtain ⟨⟨ack, ackMatches⟩, hack, h⟩ := bind_ok.1 h
  obtain ⟨⟨readback, readbackMatches⟩, hreadback, h⟩ := bind_ok.1 h
  obtain ⟨rfl, rfl⟩ := Prod.mk.inj (pure_ok.1 h)
  unfold validateWrite at hwrite
  simp only [bind_ok, reject_ok, exists_const] at hwrite
  obtain ⟨_, hrequest, _, hackShape, hmatches, hback⟩ := hwrite
  unfold validateRequestShape at hrequest
  simp only [bind_ok, reject_ok, exists_const, not_or, not_lt, not_not, gt_iff_lt, if_true] at hrequest
  obtain ⟨⟨hne, hcount⟩, shape, hshape, hvalue, -, hlength⟩ := hrequest
  have hall := mapM_ok.1 hsegments
  obtain ⟨hencoded, hvalues⟩ := requestLength_agrees hall hshape
  rw [hvalue, Nat.zero_add] at hvalues
  obtain ⟨hackValid, rfl⟩ := ackPlan_ok hackShape hmatches hack
  have hempty : segments.isEmpty = false := by
    rw [List.isEmpty_eq_false_iff]
    exact List.length_pos_iff.1 (hall.length_eq ▸ List.length_pos_iff.2 hne)
  have height : ¬ segments.length > 8 := not_lt.2 (hall.length_eq ▸ hcount)
  have hback := validateOptional_ok.1 hback
  have hplan : (readback = none ∧ readbackMatches = []) ∨ ∃ plan, readback = some plan ∧ ReadPlan encoding plan ∧
      readbackMatches = [instancesOf plan.response.matches] := by
    rcases compileOptional_ok hreadback with ⟨-, hnone, hempty⟩ | ⟨x, y, hx, hy, hcompile⟩
    · exact .inl ⟨hnone, hempty⟩
    · obtain ⟨hread, hcorrelations⟩ := readPlan_ok hencoding (hback x hx) hcompile
      exact .inr ⟨y, hy, hread, hcorrelations⟩
  refine ⟨?_, rfl, rfl, rfl, ?_⟩
  · unfold SimpleWritePlan.validate
    rw [if_neg (by simp [hempty, height, hscale, hzero, hoffset, ← hvalues])]
    refine bind_ok.2 ⟨_, hencoded, ?_⟩
    rw [if_neg (not_not.2 hlength)]
    refine bind_ok.2 ⟨(), hackValid, ?_⟩
    rcases hplan with ⟨rfl, -⟩ | ⟨plan, rfl, hread, -⟩
    · rfl
    · obtain ⟨hraw, hs, ho⟩ := hread.transform
      dsimp only
      rw [if_neg (by simp [hread.request.1, hread.request.2])]
      refine bind_ok.2 ⟨(), hread.response, ?_⟩
      rw [if_neg (by simp [hraw, hs, ho, beq_of_finite hscale, beq_of_finite hoffset])]
      rfl
  · rcases hplan with ⟨rfl, rfl⟩ | ⟨plan, rfl, -, rfl⟩
    · rfl
    · rfl

/-! ### Registration -/

/-- One parameter as the compiler leaves it. -/
structure Emitted (instrument : InstrumentId) (t : CompiledParameterTemplate) (p : SimpleParameterConfig) : Prop where
  descriptor : p.descriptor = templateDescriptor t instrument
  valid : p.descriptor.validateDefinition = .ok ()
  read : (t.read = none ∧ p.read = none) ∨ ∃ plan, t.read.isSome = true ∧ p.read = some plan ∧ ReadPlan t.encoding plan
  write : (t.write = none ∧ p.write = none) ∨ ∃ plan, t.write.isSome = true ∧ p.write = some plan ∧
    plan.validate = .ok () ∧ plan.encoding = t.encoding.raw ∧ plan.scale = t.encoding.scale ∧
      plan.engineeringOffset = t.encoding.offset

/-- The comparisons of every plan of a parameter that carry the instance. -/
def planInstances (p : SimpleParameterConfig) : List InstanceMatches :=
  (p.read.map fun read => instancesOf read.response.matches).toList ++ (p.write.map writeInstances).getD []

theorem compileParameter_ok {instrument : InstrumentId} {address channel : UInt16} {t : CompiledParameterTemplate}
    {p : SimpleParameterConfig} {correlations : List CompiledResponseCorrelation} (ht : Template t)
    (h : compileParameter instrument address channel t = .ok (p, correlations)) :
    Emitted instrument t p ∧ correlations.map (·.instanceMatches) = planInstances p := by
  obtain ⟨⟨read, readMatches⟩, hread, h⟩ := bind_ok.1 h
  obtain ⟨⟨write, writeMatches⟩, hwrite, h⟩ := bind_ok.1 h
  obtain ⟨_, hvalid, h⟩ := bind_ok.1 h
  obtain ⟨rfl, rfl⟩ := Prod.mk.inj (pure_ok.1 h)
  have hreadPlan := compileOptional_ok hread
  have hwritePlan := compileOptional_ok hwrite
  have hreadMatches : readMatches = (read.map fun read => instancesOf read.response.matches).toList := by
    rcases hreadPlan with ⟨-, rfl, rfl⟩ | ⟨r, plan, hr, rfl, hcompile⟩
    · rfl
    · exact (readPlan_ok ht.encoding (ht.read r hr) hcompile).2
  have hwriteMatches : writeMatches = (write.map writeInstances).getD [] := by
    rcases hwritePlan with ⟨-, rfl, rfl⟩ | ⟨w, plan, hw, rfl, hcompile⟩
    · rfl
    · exact (writePlan_ok ht.encoding (ht.write w hw) hcompile).2.2.2.2
  refine ⟨⟨rfl, ofCore_ok.1 hvalid, ?_, ?_⟩, ?_⟩
  · rcases hreadPlan with ⟨hnone, rfl, -⟩ | ⟨r, plan, hr, rfl, hcompile⟩
    · exact .inl ⟨hnone, rfl⟩
    · exact .inr ⟨plan, by rw [hr]; rfl, rfl, (readPlan_ok ht.encoding (ht.read r hr) hcompile).1⟩
  · rcases hwritePlan with ⟨hnone, rfl, -⟩ | ⟨w, plan, hw, rfl, hcompile⟩
    · exact .inl ⟨hnone, rfl⟩
    · obtain ⟨hplan, hraw, hscale, hoffset, -⟩ := writePlan_ok ht.encoding (ht.write w hw) hcompile
      exact .inr ⟨plan, by rw [hw]; rfl, rfl, hplan, hraw, hscale, hoffset⟩
  · rw [List.map_map, hreadMatches, hwriteMatches]
    exact List.map_id _

/-- A parameter that may only be written has no plan to read it. -/
def Unread (t : CompiledParameterTemplate) : Prop := t.access = .writeOnly → t.read = none

instance (t : CompiledParameterTemplate) : Decidable (Unread t) :=
  inferInstanceAs (Decidable (t.access = .writeOnly → t.read = none))

section Registration

open SimpleDeviceInstrument

variable {instrument : InstrumentId} {capacity : ℕ} {b : Build} {t : CompiledParameterTemplate}
  {p : SimpleParameterConfig}

theorem signalBuffer_ok {signal : SignalId} (hcapacity : 1 ≤ capacity ∧ capacity ≤ maxHistoryCapacity) :
    SignalBuffer.new signal capacity = .ok { id := signal, capacity := capacity, samples := [] } := by
  unfold SignalBuffer.new
  rw [if_pos hcapacity]

/-- Core takes one emitted parameter, whatever was registered before it. -/
theorem addParameter_ok (ht : Template t) (hp : Emitted instrument t p) (hunread : Unread t)
    (hfresh : b.descriptors.any (fun d => d.id == t.id) = false)
    (hcapacity : 1 ≤ capacity ∧ capacity ≤ maxHistoryCapacity) (hone : t.role = .actuator → b.actuatorCount = 0) :
    ∃ b', addParameter instrument capacity b p = .ok b' ∧ b'.descriptors = b.descriptors ++ [p.descriptor] ∧
      b'.actuatorCount = b.actuatorCount + if t.role = .actuator then 1 else 0 := by
  obtain ⟨descriptor, read, write⟩ := p
  obtain rfl : descriptor = templateDescriptor t instrument := hp.descriptor
  have hvalid := hp.valid
  dsimp only at hvalid
  have hid := ht.id
  have hkey : (templateDescriptor t instrument).id = t.id := rfl
  rcases ht.shape with ⟨hrole, haccess, heffect, hread, hwrite⟩ | ⟨hrole, haccess, heffect, hfloat, hwrite⟩
  · have hnone : t.role ≠ .actuator := fun h => by rw [h] at hrole; cases hrole
    rcases hp.read with ⟨h, -⟩ | ⟨plan, -, h, hplan⟩
    · rw [h] at hread; cases hread
    obtain rfl : read = some plan := h
    rcases hp.write with ⟨-, h⟩ | ⟨plan, h, -⟩
    · obtain rfl : write = none := h
      have hobs : SimpleDeviceInstrument.isObservation instrument
          { descriptor := templateDescriptor t instrument, read := some plan, write := none } = true := by
        simp [SimpleDeviceInstrument.isObservation, templateDescriptor, hrole, haccess, heffect]
      have hact : SimpleDeviceInstrument.isActuator instrument
          { descriptor := templateDescriptor t instrument, read := some plan, write := none } = false := by
        simp [SimpleDeviceInstrument.isActuator, templateDescriptor, hnone]
      have hsignal : (templateDescriptor t instrument).signal =
          some { instrument := instrument, parameter := t.id } := by
        simp [templateDescriptor, haccess]
      refine ⟨{ b with
          descriptors := b.descriptors ++ [templateDescriptor t instrument]
          signals := b.signals.insert { instrument := instrument, parameter := t.id }
            { id := { instrument := instrument, parameter := t.id }, capacity := capacity, samples := [] }
          plans := b.plans.insert t.id plan }, ?_, rfl, by simp [hnone]⟩
      unfold addParameter
      dsimp only
      rw [if_neg (by simp [templateDescriptor, hid, hfresh]), hvalid, hobs, hact]
      refine bind_ok.2 ⟨(), rfl, ?_⟩
      simp [hplan.request.1, not_lt.2 hplan.request.2, hsignal, hplan.response, signalBuffer_ok hcapacity, ok_bind, hkey]
    · rw [hwrite] at h; cases h
  · rcases hp.write with ⟨h, -⟩ | ⟨plan, -, h, hplan, hraw, hscale, hoffset⟩
    · rw [h] at hwrite; cases hwrite
    obtain rfl : write = some plan := h
    have hobs : SimpleDeviceInstrument.isObservation instrument
        { descriptor := templateDescriptor t instrument, read := read, write := some plan } = false := by
      simp [SimpleDeviceInstrument.isObservation]
    have hact : SimpleDeviceInstrument.isActuator instrument
        { descriptor := templateDescriptor t instrument, read := read, write := some plan } = true := by
      rcases haccess with ⟨haccess, -⟩ | haccess <;>
        simp [SimpleDeviceInstrument.isActuator, templateDescriptor, hrole, haccess, heffect, hfloat]
    have hzero : b.actuatorCount ≠ 1 := by rw [hone hrole]; exact Nat.zero_ne_one
    obtain ⟨hfinite, -, hfinite'⟩ := transform_ok ht.encoding
    rcases haccess with ⟨haccess, hread⟩ | haccess
    · rcases hp.read with ⟨h, -⟩ | ⟨rplan, -, h, hrplan⟩
      · rw [h] at hread; cases hread
      obtain rfl : read = some rplan := h
      have hsignal : (templateDescriptor t instrument).signal =
          some { instrument := instrument, parameter := t.id } := by
        simp [templateDescriptor, haccess]
      obtain ⟨hrraw, hrscale, hroffset⟩ := hrplan.transform
      refine ⟨{ b with
          descriptors := b.descriptors ++ [templateDescriptor t instrument]
          signals := b.signals.insert { instrument := instrument, parameter := t.id }
            { id := { instrument := instrument, parameter := t.id }, capacity := capacity, samples := [] }
          plans := b.plans.insert t.id rplan
          writes := b.writes.insert t.id plan
          actuatorCount := b.actuatorCount + 1 }, ?_, rfl, by simp [hrole]⟩
      unfold addParameter
      dsimp only
      rw [if_neg (by simp [templateDescriptor, hid, hfresh]), hvalid, hobs, hact]
      refine bind_ok.2 ⟨(), rfl, ?_⟩
      simp [hrplan.request.1, not_lt.2 hrplan.request.2, hsignal, hrplan.response, signalBuffer_ok hcapacity, hplan,
        hzero, hraw, hscale, hoffset, hrraw, hrscale, hroffset, beq_of_finite hfinite, beq_of_finite hfinite', ok_bind, hkey]
    · rcases hp.read with ⟨-, h⟩ | ⟨rplan, h, -⟩
      · obtain rfl : read = none := h
        have hwriteOnly : (templateDescriptor t instrument).access = .writeOnly := haccess
        refine ⟨{ b with
            descriptors := b.descriptors ++ [templateDescriptor t instrument]
            writes := b.writes.insert t.id plan
            actuatorCount := b.actuatorCount + 1 }, ?_, rfl, by simp [hrole]⟩
        unfold addParameter
        dsimp only
        rw [if_neg (by simp [templateDescriptor, hid, hfresh]), hvalid, hobs, hact]
        refine bind_ok.2 ⟨(), rfl, ?_⟩
        simp [hwriteOnly, hplan, hzero, hkey]
      · rw [hunread haccess] at h; cases h

/-- Core takes every emitted parameter in turn. -/
theorem addParameters_ok {ts : List CompiledParameterTemplate} {ps : List SimpleParameterConfig}
    (hemitted : List.Forall₂ (Emitted instrument) ts ps) (hts : ∀ t ∈ ts, Template t ∧ Unread t)
    (hdistinct : (ts.map (·.id)).Nodup) (hfresh : ∀ t ∈ ts, b.descriptors.any (fun d => d.id == t.id) = false)
    (hcapacity : 1 ≤ capacity ∧ capacity ≤ maxHistoryCapacity)
    (hone : b.actuatorCount + ts.countP (fun t => t.role == .actuator) ≤ 1) :
    ∃ b', ps.foldlM (addParameter instrument capacity) b = .ok b' ∧ b'.descriptors = b.descriptors ++ ps.map (·.descriptor) ∧
      b'.actuatorCount = b.actuatorCount + ts.countP (fun t => t.role == .actuator) := by
  induction hemitted generalizing b with
  | nil => exact ⟨b, rfl, by simp, rfl⟩
  | @cons t p ts ps hp _ ih =>
    obtain ⟨ht, hunread⟩ := hts t List.mem_cons_self
    rw [List.map_cons, List.nodup_cons] at hdistinct
    rw [List.countP_cons] at hone
    simp only [beq_iff_eq] at hone
    have hfirst : t.role = .actuator → b.actuatorCount = 0 := fun hrole => by
      rw [if_pos hrole] at hone
      omega
    obtain ⟨b₁, hadd, hdescriptors, hcount⟩ :=
      addParameter_ok ht hp hunread (hfresh t List.mem_cons_self) hcapacity hfirst
    have hfresh₁ : ∀ u ∈ ts, b₁.descriptors.any (fun d => d.id == u.id) = false := by
      intro u hu
      have hdiffer : t.id ≠ u.id := fun h => hdistinct.1 (List.mem_map.2 ⟨u, hu, h.symm⟩)
      rw [hdescriptors, List.any_append, hfresh u (List.mem_cons_of_mem _ hu), hp.descriptor]
      simpa [templateDescriptor] using hdiffer
    obtain ⟨b', hrest, hdescriptors', hcount'⟩ :=
      ih (fun u hu => hts u (List.mem_cons_of_mem _ hu)) hdistinct.2 hfresh₁ (by rw [hcount]; omega)
    refine ⟨b', ?_, ?_, ?_⟩
    · rw [List.foldlM_cons]
      exact bind_ok.2 ⟨b₁, hadd, hrest⟩
    · rw [hdescriptors', hdescriptors, List.append_assoc]
      rfl
    · rw [hcount', hcount, List.countP_cons]
      simp only [beq_iff_eq]
      omega

/-- Core refuses a plan to read what may only be written: there is no signal for its samples. -/
theorem addParameter_refuses (ht : Template t) (hp : Emitted instrument t p) (hread : ¬ Unread t) (b' : Build) :
    addParameter instrument capacity b p ≠ .ok b' := by
  obtain ⟨haccess, hread⟩ := Classical.not_imp.1 hread
  obtain ⟨descriptor, read, write⟩ := p
  obtain rfl : descriptor = templateDescriptor t instrument := hp.descriptor
  have hvalid := hp.valid
  dsimp only at hvalid
  rcases hp.read with ⟨h, -⟩ | ⟨plan, -, h, hplan⟩
  · exact absurd h hread
  obtain rfl : read = some plan := h
  have hwriteOnly : (templateDescriptor t instrument).access = .writeOnly := haccess
  have hsignal : (templateDescriptor t instrument).signal = none := by simp [templateDescriptor, haccess]
  have hobs : SimpleDeviceInstrument.isObservation instrument
      { descriptor := templateDescriptor t instrument, read := some plan, write := write } = false := by
    simp [SimpleDeviceInstrument.isObservation, hwriteOnly]
  have hact : SimpleDeviceInstrument.isActuator instrument
      { descriptor := templateDescriptor t instrument, read := some plan, write := write } = true := by
    rcases ht.shape with ⟨-, hreadOnly, -⟩ | ⟨hrole, -, heffect, hfloat, -⟩
    · rw [haccess] at hreadOnly; cases hreadOnly
    · simp [SimpleDeviceInstrument.isActuator, templateDescriptor, hrole, haccess, heffect, hfloat]
  intro h
  unfold addParameter at h
  dsimp only at h
  rw [hvalid, hobs, hact] at h
  rcases ite_eq_iff.1 h with ⟨-, h⟩ | ⟨-, h⟩
  · obtain ⟨_, h, -⟩ := bind_ok.1 h
    cases h
  · rw [hwriteOnly, hsignal] at h
    obtain ⟨_, -, h⟩ := bind_ok.1 h
    rw [if_neg (by decide), if_neg (by decide), if_neg (by simp [hplan.request.1, hplan.request.2])] at h
    obtain ⟨_, -, h⟩ := bind_ok.1 h
    obtain ⟨_, h, -⟩ := bind_ok.1 h
    cases h

end Registration

theorem compileParameters_ok {instrument : InstrumentId} {address channel : UInt16}
    {ts : List CompiledParameterTemplate} {pairs : List (SimpleParameterConfig × List CompiledResponseCorrelation)}
    (h : List.Forall₂ (fun t pair => compileParameter instrument address channel t = .ok pair) ts pairs)
    (hts : ∀ t ∈ ts, Template t) :
    List.Forall₂ (Emitted instrument) ts (pairs.map Prod.fst) ∧
      (pairs.flatMap Prod.snd).map (·.instanceMatches) = (pairs.map Prod.fst).flatMap planInstances := by
  induction h with
  | nil => exact ⟨.nil, rfl⟩
  | @cons t pair ts pairs ht _ ih =>
    obtain ⟨hemitted, hmatches⟩ := compileParameter_ok (hts t List.mem_cons_self) ht
    obtain ⟨hall, hrest⟩ := ih fun u hu => hts u (List.mem_cons_of_mem _ hu)
    refine ⟨.cons hemitted hall, ?_⟩
    rw [List.flatMap_cons, List.map_append, hmatches, hrest, List.map_cons, List.flatMap_cons]

/-- The parameters that an instance is compiled to, one for each template. -/
theorem compileInstance_ok {d : CompiledSimpleDefinition} {instrument : InstrumentId} {address channel : UInt16}
    {compiled : CompiledSimpleInstance} (hd : Definition d.parameters)
    (h : compileSimpleInstance d instrument address channel = .ok compiled) :
    List.Forall₂ (Emitted instrument) d.parameters compiled.parameters ∧
      compiled.correlations.map (·.instanceMatches) = compiled.parameters.flatMap planInstances := by
  obtain ⟨pairs, hpairs, h⟩ := bind_ok.1 h
  obtain rfl := pure_ok.1 h
  exact compileParameters_ok (mapM_ok.1 hpairs) hd.templates

end LabRuntime.Simple
