import LabRuntime.Lib.Checks
import LabRuntime.SimpleDevice

/-! Registered plans read and write inside their buffers: the indexing of the decoders is modelled
beside them, with every access that would leave a buffer or overflow an offset as a failure. -/

namespace LabRuntime

open Checks

/-! ### Decoders that may fail to index -/

/-- `&bytes[start..stop]`, absent where the program would panic. -/
def indexBytes (bytes : List UInt8) (start stop : ℕ) : Option (List UInt8) :=
  if start ≤ stop ∧ stop ≤ bytes.length then some ((bytes.take stop).drop start) else none

/-- Whether a comparison holds; the end of its range is computed first. -/
def SimpleResponseMatch.examine (m : SimpleResponseMatch) (bytes : List UInt8) : Option Bool := do
  let _ ← checkedAdd m.offset m.expected.length
  return m.holds bytes

def SimpleResponseChecksum.examine (c : SimpleResponseChecksum) (bytes : List UInt8) : Option Bool := do
  let stop ← checkedAdd c.offset c.algorithm.width
  let covered ← indexBytes bytes 0 c.offset
  let field ← indexBytes bytes c.offset stop
  return c.algorithm.field covered == field

/-- The comparisons in turn, up to the first that does not hold. -/
def examineMatches (bytes : List UInt8) : List SimpleResponseMatch → Option Bool
  | [] => some true
  | m :: ms => do
    let holds ← m.examine bytes
    if holds then examineMatches bytes ms else some false

def examineChecksum (bytes : List UInt8) : Option SimpleResponseChecksum → Option Bool
  | none => some true
  | some checksum => checksum.examine bytes

/-- Whether a response of the exact length carries its evidence. -/
def examineEvidence (exactLength : ℕ) (ms : List SimpleResponseMatch) (checksum : Option SimpleResponseChecksum)
    (bytes : List UInt8) : Option Bool :=
  if bytes.length ≠ exactLength then some false
  else do
    let held ← examineMatches bytes ms
    if held then examineChecksum bytes checksum else some false

namespace SimpleResponsePlan

/-- The engineering value of a response whose evidence was found. -/
def extract (p : SimpleResponsePlan) (bytes : List UInt8) : Option (F64 × List UInt8) := do
  let rawBytes ← slice bytes p.extractOffset p.encoding.width
  let normalizedRaw ← p.encoding.normalizeRaw rawBytes
  let raw ← p.encoding.decode rawBytes
  let engineering := (raw.mul p.scale).add p.engineeringOffset
  if engineering.isFinite then some (engineering, normalizedRaw) else none

/-- `decode_scalar` with its panics. -/
def examine (p : SimpleResponsePlan) (bytes : List UInt8) : Option (Option (F64 × List UInt8)) := do
  let sound ← examineEvidence p.exactLength p.matches p.checksum bytes
  if sound then
    let _ ← checkedAdd p.extractOffset p.encoding.width
    return p.extract bytes
  else return none

end SimpleResponsePlan

/-- `accepts` with its panics. -/
def SimpleAckPlan.examine (p : SimpleAckPlan) (bytes : List UInt8) : Option Bool :=
  examineEvidence p.exactLength p.matches p.checksum bytes

/-! ### What a passed plan is known to satisfy -/

theorem checkedAdd_of_le {a b : ℕ} (h : a + b ≤ maxTransactionBytes) : checkedAdd a b = some (a + b) := by
  have hmax : maxTransactionBytes ≤ u64Max := by decide
  unfold checkedAdd
  rw [if_pos (by omega)]

/-- Evidence inside a response of `exactLength` bytes. -/
structure EvidenceWithin (exactLength : ℕ) (ms : List SimpleResponseMatch) (checksum : Option SimpleResponseChecksum) :
    Prop where
  exact : 1 ≤ exactLength ∧ exactLength ≤ maxTransactionBytes
  comparison : ∀ m ∈ ms, m.offset + m.expected.length ≤ exactLength
  checksum : ∀ c ∈ checksum, c.offset + c.algorithm.width ≤ exactLength

theorem occupyMatch_bound {exactLength : ℕ} {occupied occupied' : Occupied} {m : SimpleResponseMatch}
    (h : occupyMatch exactLength occupied m = .ok occupied') : m.offset + m.expected.length ≤ exactLength := by
  unfold occupyMatch at h
  rcases ite_eq_iff.1 h with ⟨-, h⟩ | ⟨-, h⟩
  · obtain ⟨_, h, -⟩ := bind_ok.1 h
    cases h
  rcases ite_eq_iff.1 h with ⟨-, h⟩ | ⟨-, h⟩
  · obtain ⟨_, h, -⟩ := bind_ok.1 h
    cases h
  rcases ite_eq_iff.1 h with ⟨-, h⟩ | ⟨hbound, -⟩
  · obtain ⟨_, h, -⟩ := bind_ok.1 h
    cases h
  exact not_lt.1 hbound

theorem evidence_within {exactLength : ℕ} {ms : List SimpleResponseMatch} {checksum : Option SimpleResponseChecksum}
    {occupied : Occupied} (h : validateResponseEvidence exactLength ms checksum = .ok occupied) :
    EvidenceWithin exactLength ms checksum := by
  unfold validateResponseEvidence at h
  rcases ite_eq_iff.1 h with ⟨-, h⟩ | ⟨hexact, h⟩
  · obtain ⟨_, h, -⟩ := bind_ok.1 h
    cases h
  simp only [not_or, not_not] at hexact
  obtain ⟨occupied', hloop, h⟩ := bind_ok.1 h
  refine ⟨hexact.1, ?_, ?_⟩
  · intro m hm
    obtain ⟨_, _, hmatch⟩ := foldlM_visits hloop m hm
    exact occupyMatch_bound hmatch
  · intro c hc
    obtain rfl : checksum = some c := hc
    dsimp only at h
    rcases ite_eq_iff.1 h with ⟨-, h⟩ | ⟨-, h⟩
    · obtain ⟨_, h, -⟩ := bind_ok.1 h
      cases h
    rcases ite_eq_iff.1 h with ⟨-, h⟩ | ⟨hbound, -⟩
    · obtain ⟨_, h, -⟩ := bind_ok.1 h
      cases h
    simp only [not_or, not_lt] at hbound
    exact hbound.2.2.1

theorem SimpleResponsePlan.within {p : SimpleResponsePlan} (h : p.validate = .ok ()) :
    EvidenceWithin p.exactLength p.matches p.checksum ∧ p.extractOffset + p.encoding.width ≤ p.exactLength := by
  unfold SimpleResponsePlan.validate at h
  rcases ite_eq_iff.1 h with ⟨-, h⟩ | ⟨-, h⟩
  · obtain ⟨_, h, -⟩ := bind_ok.1 h
    cases h
  rcases ite_eq_iff.1 h with ⟨-, h⟩ | ⟨-, h⟩
  · obtain ⟨_, h, -⟩ := bind_ok.1 h
    cases h
  rcases ite_eq_iff.1 h with ⟨-, h⟩ | ⟨hextract, h⟩
  · obtain ⟨_, h, -⟩ := bind_ok.1 h
    cases h
  obtain ⟨occupied, hevidence, -⟩ := bind_ok.1 h
  exact ⟨evidence_within hevidence, not_lt.1 hextract⟩

theorem SimpleAckPlan.within {p : SimpleAckPlan} (h : p.validate = .ok ()) :
    EvidenceWithin p.exactLength p.matches p.checksum := by
  obtain ⟨occupied, hevidence, -⟩ := bind_ok.1 h
  exact evidence_within hevidence

/-! ### Decoding -/

theorem examineMatches_eq {exactLength : ℕ} {bytes : List UInt8} {ms : List SimpleResponseMatch}
    (hexact : exactLength ≤ maxTransactionBytes) (h : ∀ m ∈ ms, m.offset + m.expected.length ≤ exactLength) :
    examineMatches bytes ms = some (ms.all fun m => m.holds bytes) := by
  induction ms with
  | nil => rfl
  | cons m ms ih =>
    have hadd := checkedAdd_of_le ((h m List.mem_cons_self).trans hexact)
    have ih := ih fun m hm => h m (List.mem_cons_of_mem _ hm)
    unfold examineMatches SimpleResponseMatch.examine
    rw [hadd, List.all_cons]
    cases hm : m.holds bytes with
    | true => simpa [hm] using ih
    | false => simp

theorem examineChecksum_eq {bytes : List UInt8} {checksum : Option SimpleResponseChecksum}
    (hexact : bytes.length ≤ maxTransactionBytes)
    (h : ∀ c ∈ checksum, c.offset + c.algorithm.width ≤ bytes.length) :
    examineChecksum bytes checksum = some (checksum.all fun c => c.holds bytes) := by
  cases checksum with
  | none => rfl
  | some c =>
    have hbound := h c rfl
    have hadd := checkedAdd_of_le (hbound.trans hexact)
    have hcovered : indexBytes bytes 0 c.offset = some (bytes.take c.offset) := by
      unfold indexBytes
      rw [if_pos (by omega), List.drop_zero]
    have hfield : indexBytes bytes c.offset (c.offset + c.algorithm.width) =
        slice bytes c.offset c.algorithm.width := by
      unfold indexBytes slice
      rw [if_pos (by omega), if_pos hbound, List.take_drop]
    have hslice : slice bytes c.offset c.algorithm.width = some ((bytes.drop c.offset).take c.algorithm.width) := by
      unfold slice
      rw [if_pos hbound]
    change c.examine bytes = some (c.holds bytes)
    unfold SimpleResponseChecksum.examine SimpleResponseChecksum.holds
    rw [hadd, Option.bind_eq_bind, Option.bind_some, hcovered, Option.bind_eq_bind, Option.bind_some, hfield, hslice]
    simp [BEq.comm]

theorem examineEvidence_eq {exactLength : ℕ} {ms : List SimpleResponseMatch} {checksum : Option SimpleResponseChecksum}
    (h : EvidenceWithin exactLength ms checksum) (bytes : List UInt8) :
    examineEvidence exactLength ms checksum bytes = some (bytes.length == exactLength &&
      ms.all (fun m => m.holds bytes) && checksum.all fun c => c.holds bytes) := by
  unfold examineEvidence
  by_cases hlength : bytes.length = exactLength
  · rw [if_neg (not_not.2 hlength), examineMatches_eq h.exact.2 h.comparison]
    cases hall : ms.all fun m => m.holds bytes with
    | true => simpa [hlength] using examineChecksum_eq (hlength ▸ h.exact.2) (hlength ▸ h.checksum)
    | false => simp
  · simp [hlength]

/-- A plan that Core passed decodes every byte string without leaving it. -/
theorem SimpleResponsePlan.examine_eq {p : SimpleResponsePlan} (h : p.validate = .ok ()) (bytes : List UInt8) :
    p.examine bytes = some (p.decodeScalar bytes) := by
  obtain ⟨hevidence, hextract⟩ := SimpleResponsePlan.within h
  have hadd := checkedAdd_of_le (hextract.trans hevidence.exact.2)
  unfold SimpleResponsePlan.examine SimpleResponsePlan.decodeScalar
  rw [examineEvidence_eq hevidence bytes, hadd, Option.bind_eq_bind, Option.bind_some]
  by_cases hsound : (bytes.length == p.exactLength && p.matches.all (fun m => m.holds bytes) &&
      p.checksum.all fun c => c.holds bytes) = true
  · rw [if_pos hsound]
    simp only [Bool.and_eq_true, beq_iff_eq] at hsound
    rw [if_neg (by simp [hsound.1.1, hsound.1.2, hsound.2])]
    rfl
  · rw [if_neg hsound, if_pos]
    · rfl
    · simp only [Bool.and_eq_true, beq_iff_eq, not_and_or, Bool.not_eq_true] at hsound
      tauto

/-- So does the plan of an acknowledgement. -/
theorem SimpleAckPlan.examine_eq {p : SimpleAckPlan} (h : p.validate = .ok ()) (bytes : List UInt8) :
    p.examine bytes = some (p.accepts bytes) := examineEvidence_eq (SimpleAckPlan.within h) bytes

/-! ### Encoding -/

theorem SimpleScalarEncoding.order_length (e : SimpleScalarEncoding) (bytes : List UInt8) :
    (e.order bytes).length = bytes.length := by
  unfold SimpleScalarEncoding.order
  split_ifs
  · exact List.length_reverse
  · rfl

theorem leBytes_length (width n : ℕ) : (leBytes width n).length = width := by
  simp [leBytes]

theorem SimpleScalarEncoding.ordered_length (e : SimpleScalarEncoding) {n : Option ℕ} {raw : List UInt8}
    (h : (match n with | some n => some (e.order (leBytes e.width n)) | none => none) = some raw) : raw.length = e.width := by
  cases n with
  | none => cases h
  | some n =>
    obtain rfl := Option.some.inj h
    rw [e.order_length, leBytes_length]

/-- Every raw scalar has the width of its encoding. -/
theorem SimpleScalarEncoding.encode_length {e : SimpleScalarEncoding} {engineering scale offset : F64}
    {raw : List UInt8} (h : e.encode engineering scale offset = some raw) : raw.length = e.width := by
  have hwidth : ∀ n, (e.order (leBytes e.width n)).length = e.width := fun n => by
    rw [e.order_length, leBytes_length]
  unfold SimpleScalarEncoding.encode at h
  rcases ite_eq_iff.1 h with ⟨-, h⟩ | ⟨-, h⟩
  · cases h
  rcases ite_eq_iff.1 h with ⟨-, h⟩ | ⟨-, h⟩
  · cases h
  cases hkind : e.kind with
  | float =>
    rw [hkind] at h
    rcases ite_eq_iff.1 h with ⟨-, h⟩ | ⟨-, h⟩
    · cases h
    · exact Option.some.inj h ▸ hwidth _
  | unsigned =>
    rw [hkind] at h
    exact e.ordered_length h
  | signed =>
    rw [hkind] at h
    exact e.ordered_length h

theorem SimpleChecksum.field_length (c : SimpleChecksum) (covered : List UInt8) :
    (c.field covered).length = c.width := by
  cases c <;> rfl

/-- The bytes that one segment adds. -/
def segmentBytes (raw request : List UInt8) : SimpleWriteSegment → List UInt8
  | .literal bytes => bytes
  | .value => raw
  | .checksum algorithm => algorithm.field request

theorem encodeSegment_ok {raw request request' : List UInt8} {segment : SimpleWriteSegment}
    (h : SimpleWritePlan.encodeSegment raw request segment = some request') :
    request' = request ++ segmentBytes raw request segment := by
  cases segment <;>
  · unfold SimpleWritePlan.encodeSegment at h
    dsimp only at h
    split_ifs at h
    exact (Option.some.inj h).symm

theorem counted {encoding : SimpleScalarEncoding} {rest : List SimpleWriteSegment} {length width total : ℕ} {seen : Bool}
    {error : Error} (h : (match checkedAdd length width with
      | none => throw error
      | some length => SimpleWritePlan.requestLength encoding rest length seen) = .ok total) :
    SimpleWritePlan.requestLength encoding rest (length + width) seen = .ok total := by
  cases hadd : checkedAdd length width with
  | none => rw [hadd] at h; cases h
  | some sum =>
    rw [hadd] at h
    unfold checkedAdd at hadd
    split_ifs at hadd
    obtain rfl := Option.some.inj hadd
    exact h

/-- One segment of a counted request adds what was counted, and only the last is a checksum. -/
theorem requestLength_cons {encoding : SimpleScalarEncoding} {segment : SimpleWriteSegment}
    {rest : List SimpleWriteSegment} {length total : ℕ} {seen : Bool} {raw : List UInt8} (request : List UInt8)
    (hraw : raw.length = encoding.width)
    (h : SimpleWritePlan.requestLength encoding (segment :: rest) length seen = .ok total) :
    (∃ seen', SimpleWritePlan.requestLength encoding rest (length + (segmentBytes raw request segment).length) seen' =
        .ok total) ∧ ∀ algorithm, segment = .checksum algorithm → rest = [] := by
  unfold SimpleWritePlan.requestLength at h
  cases segment with
  | literal bytes =>
    rcases ite_eq_iff.1 h with ⟨-, h⟩ | ⟨-, h⟩
    · cases h
    · exact ⟨⟨_, counted h⟩, fun _ heq => (nomatch heq)⟩
  | value =>
    have hrest := counted h
    rw [← hraw] at hrest
    exact ⟨⟨_, hrest⟩, fun _ heq => (nomatch heq)⟩
  | checksum algorithm =>
    rcases ite_eq_iff.1 h with ⟨-, h⟩ | ⟨hlast, h⟩
    · cases h
    · have hrest := counted h
      rw [← algorithm.field_length request] at hrest
      simp only [Bool.or_eq_true, Bool.not_eq_true', not_or, Bool.not_eq_false, List.isEmpty_iff] at hlast
      exact ⟨⟨_, hrest⟩, fun _ _ => hlast.2⟩

theorem encodeSegments_ok {encoding : SimpleScalarEncoding} {segments : List SimpleWriteSegment} {total : ℕ}
    {seen : Bool} {raw request request' : List UInt8} (hraw : raw.length = encoding.width)
    (h : SimpleWritePlan.requestLength encoding segments request.length seen = .ok total)
    (hencode : segments.foldlM (SimpleWritePlan.encodeSegment raw) request = some request') :
    request'.length = total ∧
      ∀ algorithm, .checksum algorithm ∈ segments → ∃ covered, request' = covered ++ algorithm.field covered := by
  induction segments generalizing request seen with
  | nil =>
    obtain rfl := Option.some.inj hencode
    exact ⟨Except.ok.inj h, fun _ hmem => (nomatch hmem)⟩
  | cons segment rest ih =>
    rw [List.foldlM_cons] at hencode
    obtain ⟨request₁, hstep, hencode⟩ := Option.bind_eq_some_iff.1 hencode
    obtain rfl := encodeSegment_ok hstep
    obtain ⟨⟨seen', hrest⟩, hlast⟩ := requestLength_cons request hraw h
    rw [← List.length_append] at hrest
    obtain ⟨hlength, hchecksum⟩ := ih hrest hencode
    refine ⟨hlength, ?_⟩
    intro algorithm hmem
    rcases List.mem_cons.1 hmem with rfl | hmem
    · obtain rfl := hlast algorithm rfl
      obtain rfl := Option.some.inj hencode
      exact ⟨request, rfl⟩
    · exact hchecksum algorithm hmem

/-- The length of every request that a plan encodes. -/
def SimpleWritePlan.Encodes (p : SimpleWritePlan) (length : ℕ) : Prop :=
  ∀ engineering request raw, p.encode engineering = some (request, raw) → request.length = length ∧
    ∀ algorithm, .checksum algorithm ∈ p.request → ∃ covered, request = covered ++ algorithm.field covered

/-- A write plan that Core passed encodes requests of one bounded length, each closed by its checksum. -/
theorem SimpleWritePlan.encodes {p : SimpleWritePlan} (h : p.validate = .ok ()) :
    ∃ length, 1 ≤ length ∧ length ≤ maxTransactionBytes ∧ p.Encodes length := by
  unfold SimpleWritePlan.validate at h
  rcases ite_eq_iff.1 h with ⟨-, h⟩ | ⟨-, h⟩
  · obtain ⟨_, h, -⟩ := bind_ok.1 h
    cases h
  obtain ⟨length, hlength, h⟩ := bind_ok.1 h
  rcases ite_eq_iff.1 h with ⟨-, h⟩ | ⟨hbound, -⟩
  · obtain ⟨_, h, -⟩ := bind_ok.1 h
    cases h
  obtain ⟨hpos, hmax⟩ := not_not.1 hbound
  refine ⟨length, hpos, hmax, ?_⟩
  intro engineering request raw hencode
  obtain ⟨raw', hraw, hencode⟩ := Option.bind_eq_some_iff.1 hencode
  obtain ⟨request', hrequest, hencode⟩ := Option.bind_eq_some_iff.1 hencode
  split_ifs at hencode
  obtain ⟨rfl, rfl⟩ := Prod.mk.inj (Option.some.inj hencode)
  have hwidth := SimpleScalarEncoding.encode_length hraw
  rw [← List.length_nil (α := UInt8)] at hlength
  exact encodeSegments_ok hwidth hlength hrequest

/-- A write plan that Core passed holds plans that Core passed. -/
theorem SimpleWritePlan.parts {p : SimpleWritePlan} (h : p.validate = .ok ()) :
    p.ack.validate = .ok () ∧ ∀ readback ∈ p.readback, readback.response.validate = .ok () := by
  unfold SimpleWritePlan.validate at h
  rcases ite_eq_iff.1 h with ⟨-, h⟩ | ⟨-, h⟩
  · obtain ⟨_, h, -⟩ := bind_ok.1 h
    cases h
  obtain ⟨length, -, h⟩ := bind_ok.1 h
  rcases ite_eq_iff.1 h with ⟨-, h⟩ | ⟨-, h⟩
  · obtain ⟨_, h, -⟩ := bind_ok.1 h
    cases h
  obtain ⟨_, hack, h⟩ := bind_ok.1 h
  refine ⟨hack, ?_⟩
  intro readback hreadback
  rw [show p.readback = some readback from hreadback] at h
  rcases ite_eq_iff.1 h with ⟨-, h⟩ | ⟨-, h⟩
  · obtain ⟨_, h, -⟩ := bind_ok.1 h
    cases h
  obtain ⟨_, hresponse, -⟩ := bind_ok.1 h
  exact hresponse

end LabRuntime
