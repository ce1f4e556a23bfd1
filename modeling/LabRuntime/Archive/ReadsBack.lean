import LabRuntime.Archive.Measurement
import LabRuntime.Lib.Utf8

/-! A stored measurement reads back as it was recorded: each column by its own reader, the
lineage through its envelope, which always fits its bound. -/

namespace LabRuntime.Archive

/-! ### Integers -/

theorem u64_lt {n : ℕ} (h : n ≤ u64Max) : n < 256 ^ 8 := by
  unfold u64Max at h
  omega

theorem readU64Blob_u64Blob {n : ℕ} (h : n ≤ u64Max) : readU64Blob (u64Blob n) = .ok n := by
  unfold readU64Blob u64Blob
  rw [if_pos (BigEndian.length_bytes 8 n), BigEndian.value_bytes (u64_lt h)]

theorem durationBlob_ok {n : ℕ} (h : n ≤ u64Max) : durationBlob n = .ok (u64Blob n) :=
  if_neg (Nat.not_lt.2 h)

theorem parseU64_repr {n : ℕ} (h : n ≤ u64Max) : parseU64 n.repr = .ok n := by
  have hplus : n.repr.toList.head? ≠ some '+' := by
    intro hhead
    exact Decimal.not_mem_of_not_isDigit (c := '+') (by decide) (List.mem_of_mem_head? hhead)
  have hvalue : Nat.ofDigitChars 10 n.repr.toList 0 = n := by simp [Nat.toList_repr]
  unfold parseU64
  dsimp only
  rw [if_neg hplus, hvalue, if_neg]
  rintro (hnil | hdigits | hlarge)
  · exact Decimal.toList_ne_nil n hnil
  · rw [Decimal.all_isDigit] at hdigits
    cases hdigits
  · omega

/-! ### The envelope fits -/

/-- A unit identity as units are built: 1 to 32 printable ASCII characters without blanks. -/
def UnitTyped (unit : EngineeringUnit) : Prop :=
  1 ≤ unit.id.utf8ByteSize ∧ unit.id.utf8ByteSize ≤ 32 ∧ ∀ c ∈ unit.id.toList, 0x21 ≤ c.toNat ∧ c.toNat ≤ 0x7e

theorem celsius_typed : UnitTyped .celsius := by
  refine ⟨by decide, by decide, fun c hc => ?_⟩
  obtain rfl | rfl | rfl | rfl : c = 'd' ∨ c = 'e' ∨ c = 'g' ∨ c = 'C' := by simpa [EngineeringUnit.celsius] using hc
  all_goals exact ⟨by decide, by decide⟩

theorem size_jsonEscape {c : Char} (h : 0x20 ≤ c.toNat) : Utf8.size (jsonEscape c) ≤ 2 * c.utf8Size := by
  have hc := c.utf8Size_pos
  unfold jsonEscape
  split_ifs with hquote hslash
  · exact (by decide : Utf8.size ['\\', '"'] ≤ 2).trans (by omega)
  · exact (by decide : Utf8.size ['\\', '\\'] ≤ 2).trans (by omega)
  · omega
  · omega
  · omega
  · omega
  · omega
  · omega
  · have hone : Utf8.size [c] = c.utf8Size := by simp [Utf8.size]
    omega

/-- A text without control characters at most doubles, plus its quotes. -/
theorem size_jsonString {s : String} (h : ∀ c ∈ s.toList, 0x20 ≤ c.toNat) :
    (jsonString s).utf8ByteSize ≤ 2 * s.utf8ByteSize + 2 := by
  have hescaped := Utf8.size_flatMap_le (f := jsonEscape) (k := 2) fun c hc => size_jsonEscape (h c hc)
  have hquote : "\"".utf8ByteSize = 1 := by decide
  unfold jsonString
  rw [String.utf8ByteSize_append, String.utf8ByteSize_append, hquote, Utf8.utf8ByteSize_ofList, Utf8.utf8ByteSize_eq s]
  omega

theorem digit_range {c : Char} (h : c.isDigit = true) : 0x30 ≤ c.toNat ∧ c.toNat ≤ 0x39 := by
  simpa [Char.isDigit, UInt32.le_iff_toNat_le] using h

theorem utf8ByteSize_repr {n : ℕ} (h : n ≤ u64Max) : n.repr.utf8ByteSize ≤ 20 := by
  have hascii : ∀ c ∈ n.repr.toList, c.toNat < 128 := fun c hc =>
    lt_of_le_of_lt (digit_range (Decimal.isDigit_of_mem hc)).2 (by decide)
  rw [Utf8.utf8ByteSize_eq, Utf8.size_ascii hascii]
  refine Nat.repr_length n 20 (by decide) ?_
  unfold u64Max at h
  omega

/-- A numeral is not escaped. -/
theorem size_jsonString_repr {n : ℕ} (h : n ≤ u64Max) : (jsonString n.repr).utf8ByteSize ≤ 22 := by
  have hplain : n.repr.toList.flatMap jsonEscape = n.repr.toList := by
    have hone : ∀ c ∈ n.repr.toList, jsonEscape c = [c] := by
      intro c hc
      have hrange := digit_range (Decimal.isDigit_of_mem hc)
      have hquote : c ≠ '"' := by
        rintro rfl
        exact absurd hrange.1 (by decide)
      have hslash : c ≠ '\\' := by
        rintro rfl
        exact absurd hrange.2 (by decide)
      unfold jsonEscape
      rw [if_neg hquote, if_neg hslash, if_neg (by omega), if_neg (by omega), if_neg (by omega), if_neg (by omega),
        if_neg (by omega), if_neg (by omega)]
    rw [List.flatMap_congr hone, List.flatMap_singleton']
  have hsize := utf8ByteSize_repr h
  have hquote : "\"".utf8ByteSize = 1 := by decide
  unfold jsonString
  rw [hplain, String.ofList_toList, String.utf8ByteSize_append, String.utf8ByteSize_append, hquote]
  omega

theorem size_jsonFields (fields : List (String × String)) :
    (jsonFields fields).utf8ByteSize ≤
      (fields.map fun f => f.1.utf8ByteSize + 4).sum + (fields.map fun f => f.2.utf8ByteSize).sum := by
  have hquote : "\"".utf8ByteSize = 1 := by decide
  have hcolon : "\":".utf8ByteSize = 2 := by decide
  have hcomma : ",".utf8ByteSize = 1 := by decide
  induction fields with
  | nil => exact Nat.zero_le _
  | cons f fields ih =>
    obtain ⟨key, value⟩ := f
    have hhead : ("\"" ++ key ++ "\":" ++ value).utf8ByteSize = key.utf8ByteSize + 3 + value.utf8ByteSize := by
      rw [String.utf8ByteSize_append, String.utf8ByteSize_append, String.utf8ByteSize_append, hquote, hcolon]
      omega
    simp only [List.map_cons, List.sum_cons]
    cases fields with
    | nil =>
      rw [jsonFields, hhead]
      omega
    | cons g fields =>
      rw [jsonFields, String.utf8ByteSize_append, String.utf8ByteSize_append, hhead, hcomma]
      · omega
      · exact List.cons_ne_nil _ _

def lineageKeys : List String :=
  ["version", "instrument", "parameter", "value", "unit", "published_at_ns", "observed_at_ns", "source_generation",
    "source_revision", "source_state_revision"]

theorem keys_fields (json : LineageJson) (s : StoredLineage) : (json.fields s).map Prod.fst = lineageKeys := rfl

theorem length_utf8 (s : String) : (utf8 s).length = s.utf8ByteSize := rfl

/-- The machine types of a captured input. -/
structure CapturedInput.Typed (input : CapturedInput) : Prop where
  instrument : input.signal.instrument ≤ u64Max
  parameter : input.signal.parameter ≤ u64Max
  unit : UnitTyped input.unit
  sourceGeneration : input.sourceGeneration ≤ u64Max
  sourceRevision : input.sourceRevision ≤ u64Max
  sourceStateRevision : ∀ r ∈ input.sourceStateRevision, r ≤ u64Max

/-- What the encoder itself asks of an input. -/
def CapturedInput.Encodable (input : CapturedInput) : Prop :=
  input.value.isFinite = true ∧ input.sourceGeneration ≠ 0 ∧ input.sourceRevision ≠ 0 ∧
    input.freshnessTime ≤ input.time

theorem length_toVec {json : LineageJson} (hjson : json.ShortNumbers) {input : CapturedInput} (htyped : input.Typed)
    (hfinite : input.value.isFinite = true) (htime : input.time ≤ u64Max) (hfresh : input.freshnessTime ≤ u64Max) :
    (json.toVec (StoredLineage.of input)).length ≤ 512 := by
  rw [LineageJson.toVec, length_utf8]
  have hnumber := hjson input.value hfinite
  have hinstrument := size_jsonString_repr htyped.instrument
  have hparameter := size_jsonString_repr htyped.parameter
  have htime' := size_jsonString_repr htime
  have hfresh' := size_jsonString_repr hfresh
  have hgeneration := size_jsonString_repr htyped.sourceGeneration
  have hrevision := size_jsonString_repr htyped.sourceRevision
  have hunit : (jsonString input.unit.id).utf8ByteSize ≤ 66 := by
    have := size_jsonString (s := input.unit.id) fun c hc => (by decide : 0x20 ≤ 0x21).trans (htyped.unit.2.2 c hc).1
    have := htyped.unit.2.1
    omega
  have hstate : (((input.sourceStateRevision.map Nat.repr).map jsonString).getD "null").utf8ByteSize ≤ 22 := by
    cases hrev : input.sourceStateRevision with
    | none => decide
    | some r => exact size_jsonString_repr (htyped.sourceStateRevision r hrev)
  have hfields := size_jsonFields (json.fields (StoredLineage.of input))
  have hversion : (Nat.repr 1).utf8ByteSize = 1 := by decide
  have hkeys : ((json.fields (StoredLineage.of input)).map fun f => f.1.utf8ByteSize + 4).sum = 157 := by
    have hsum : (lineageKeys.map fun key => key.utf8ByteSize + 4).sum = 157 := by decide +kernel
    rw [← hsum, ← keys_fields json (StoredLineage.of input), List.map_map]
    rfl
  have hvalues : ((json.fields (StoredLineage.of input)).map fun f => f.2.utf8ByteSize).sum ≤ 245 := by
    unfold LineageJson.fields
    simp only [StoredLineage.of, List.map_cons, List.map_nil, List.sum_cons, List.sum_nil]
    omega
  have hopen : "\x7b".utf8ByteSize = 1 := by decide
  have hclose : "\x7d".utf8ByteSize = 1 := by decide
  rw [LineageJson.toText, String.utf8ByteSize_append, String.utf8ByteSize_append, hopen, hclose]
  omega

/-! ### Reading back -/

/-- What a reader is to see of a captured input. -/
def CapturedInput.recorded (input : CapturedInput) : MeasurementLineage where
  signal := input.signal
  value := input.value
  unit := input.unit.id
  publishedAt := input.time
  observedAt := input.freshnessTime
  sourceGeneration := input.sourceGeneration
  sourceRevision := input.sourceRevision
  sourceStateRevision := input.sourceStateRevision

theorem encodeLineage_ok {json : LineageJson} (hjson : json.ShortNumbers) {input : CapturedInput}
    (htyped : input.Typed) (hvalid : input.Encodable) (htime : input.time ≤ u64Max) :
    encodeLineage json input = .ok (json.toVec (StoredLineage.of input)) := by
  obtain ⟨hfinite, hgeneration, hrevision, hfresh⟩ := hvalid
  have hfits := length_toVec hjson htyped hfinite htime (hfresh.trans htime)
  unfold encodeLineage
  rw [if_neg]
  · dsimp only
    rw [if_neg (Nat.not_lt.2 hfits)]
  · rintro (h | h | h | h)
    · rw [hfinite] at h
      cases h
    · exact hgeneration h
    · exact hrevision h
    · omega

/-- The encoder's own checks are all it can fail of. -/
theorem encodable_of_encodeLineage {json : LineageJson} {input : CapturedInput} {bytes : List UInt8}
    (h : encodeLineage json input = .ok bytes) : input.Encodable := by
  unfold encodeLineage at h
  split_ifs at h with hinvalid
  push Not at hinvalid
  obtain ⟨hfinite, hgeneration, hrevision, hfresh⟩ := hinvalid
  exact ⟨by simpa using hfinite, hgeneration, hrevision, hfresh⟩

theorem decodeLineage_recorded {json : LineageJson} (hjson : json.ShortNumbers) {input : CapturedInput}
    (htyped : input.Typed) (hvalid : input.Encodable) (htime : input.time ≤ u64Max)
    (hread : json.ReadsBack (StoredLineage.of input)) :
    decodeLineage json (json.toVec (StoredLineage.of input)) = .ok input.recorded := by
  obtain ⟨hfinite, hgeneration, hrevision, hfresh⟩ := hvalid
  have hfits := length_toVec hjson htyped hfinite htime (hfresh.trans htime)
  have hstate : transpose parseU64 (input.sourceStateRevision.map Nat.repr) = .ok input.sourceStateRevision := by
    cases hrev : input.sourceStateRevision with
    | none => rfl
    | some r =>
      show (parseU64 r.repr >>= fun n => .ok (some n)) = _
      rw [parseU64_repr (htyped.sourceStateRevision r hrev)]
      rfl
  have hchecked : ¬ (1 ≠ 1 ∨ input.value.isFinite = false ∨ input.sourceGeneration = 0 ∨ input.sourceRevision = 0 ∨
      input.time < input.freshnessTime ∨ input.unit.id.utf8ByteSize = 0 ∨ 32 < input.unit.id.utf8ByteSize) := by
    have hunit := htyped.unit
    rintro (h | h | h | h | h | h | h)
    · exact h rfl
    · rw [hfinite] at h
      cases h
    · exact hgeneration h
    · exact hrevision h
    · omega
    · have := hunit.1
      omega
    · have := hunit.2.1
      omega
  unfold decodeLineage
  rw [if_neg (Nat.not_lt.2 hfits), show json.fromSlice _ = _ from hread]
  dsimp only [StoredLineage.of]
  rw [parseU64_repr htime, parseU64_repr (hfresh.trans htime), parseU64_repr htyped.sourceGeneration,
    parseU64_repr htyped.sourceRevision, hstate, parseU64_repr htyped.instrument, parseU64_repr htyped.parameter,
    Checks.ok_bind, Checks.ok_bind, Checks.ok_bind, Checks.ok_bind, Checks.ok_bind, Checks.reject_pass hchecked]
  rfl

/-- The machine types of a measurement fact. -/
structure MeasurementFact.Typed (m : MeasurementFact) : Prop where
  instrument : m.sample.signal.instrument ≤ u64Max
  parameter : m.sample.signal.parameter ≤ u64Max
  unit : UnitTyped m.sample.unit
  generation : m.generation ≤ u64Max
  revision : m.revision ≤ u64Max
  stateRevision : ∀ r ∈ m.stateRevision, r ≤ u64Max
  lineage : ∀ input ∈ m.lineage, input.Typed

/-- What a reader is to see of a measurement fact. -/
def MeasurementFact.recorded (m : MeasurementFact) (row : RowIdentity) : MeasurementRow where
  recordSequence := row.recordSequence
  publishedAt := m.sample.time
  observedAt := m.sample.freshnessTime
  unit := m.sample.unit.id
  quality := qualityText m.sample.quality
  failure := m.sample.failure.map failureText
  value := m.sample.value
  generation := m.generation
  revision := m.revision
  stateRevision := m.stateRevision
  lineage := m.lineage.map CapturedInput.recorded

/-- What validation says of a fact: its value is finite, and its lineage is encodable and no later
than the sample. -/
theorem validateStorageFact_ok {json : LineageJson} {m : MeasurementFact} (h : validateStorageFact json m = .ok ()) :
    (∀ x, m.sample.value = some (.float x) → x.isFinite = true) ∧
      ∀ input ∈ m.lineage, input.Encodable ∧ input.time ≤ m.sample.time := by
  unfold validateStorageFact at h
  obtain ⟨hfinite, h⟩ := Checks.reject_bind.1 h
  obtain ⟨-, h⟩ := Checks.reject_bind.1 h
  refine ⟨fun x hx => ?_, fun input hinput => ?_⟩
  · rw [hx] at hfinite
    simpa using hfinite
  · rw [Option.mem_def.1 hinput] at h
    obtain ⟨hconsistent, h⟩ := Checks.reject_bind.1 h
    obtain ⟨bytes, hbytes, -⟩ := Checks.bind_ok.1 h
    push Not at hconsistent
    exact ⟨encodable_of_encodeLineage hbytes, hconsistent.2.2.1⟩

/-- The value columns of a finite value: which kind they are of, and what they are decoded to. -/
theorem valueColumns_ok (value : Option Value) (hfinite : ∀ x, value = some (.float x) → x.isFinite = true) :
    ∃ stored, valueColumns value = .ok stored ∧
      ∀ c : MeasurementColumns, c.valueKind = .text stored.valueKind → c.floatValue = stored.floatValue →
        c.integerValue = stored.integerValue → c.boolValue = stored.boolValue → c.textValue = stored.textValue →
        decodeValue c.selected = .ok value := by
  rcases value with _ | value
  · refine ⟨⟨"none", .null, .null, .null, .null⟩, rfl, fun c hkind _ _ _ _ => ?_⟩
    simp [decodeValue, MeasurementColumns.selected, getText, hkind, Checks.ok_bind]
  cases value with
  | float x =>
    refine ⟨⟨"float", .real x, .null, .null, .null⟩, if_pos (hfinite x rfl), fun c hkind hvalue _ _ _ => ?_⟩
    simp [decodeValue, MeasurementColumns.selected, getText, getReal, hkind, hvalue, Checks.ok_bind]
  | integer n =>
    refine ⟨⟨"integer", .null, .integer n, .null, .null⟩, rfl, fun c hkind _ hvalue _ _ => ?_⟩
    simp [decodeValue, MeasurementColumns.selected, getText, getInteger, hkind, hvalue, Checks.ok_bind]
  | boolean b =>
    refine ⟨⟨"boolean", .null, .null, .integer (if b then 1 else 0), .null⟩, rfl, fun c hkind _ _ hvalue _ => ?_⟩
    cases b <;>
      simp_all [decodeValue, MeasurementColumns.selected, getText, getInteger, Checks.ok_bind]
  | text s =>
    refine ⟨⟨"text", .null, .null, .null, .text s⟩, rfl, fun c hkind _ _ _ hvalue => ?_⟩
    simp [decodeValue, MeasurementColumns.selected, getText, hkind, hvalue, Checks.ok_bind]
  | enum s =>
    refine ⟨⟨"enum", .null, .null, .null, .text s⟩, rfl, fun c hkind _ _ _ hvalue => ?_⟩
    simp [decodeValue, MeasurementColumns.selected, getText, hkind, hvalue, Checks.ok_bind]

theorem getBlob_of {row : List Cell} {index : ℕ} {bytes : List UInt8} (h : row[index]? = some (.blob bytes)) :
    getBlob row index = .ok bytes := by
  unfold getBlob
  rw [h]

theorem getU64_of {row : List Cell} {index n : ℕ} (h : row[index]? = some (.blob (u64Blob n))) (hn : n ≤ u64Max) :
    getU64 row index = .ok n := by
  unfold getU64
  rw [getBlob_of h]
  exact readU64Blob_u64Blob hn

theorem getText_of {row : List Cell} {index : ℕ} {s : String} (h : row[index]? = some (.text s)) :
    getText row index = .ok s := by
  unfold getText
  rw [h]

/-- A nullable column is read as it was written. -/
theorem getNullable_of {α β : Type} {get : List Cell → ℕ → Except RowError β} {row : List Cell} {index : ℕ}
    (c : α → Cell) (f : α → β) (x : Option α) (h : row[index]? = some (nullable c x)) (hnull : ∀ a, c a ≠ .null)
    (hget : ∀ a ∈ x, row[index]? = some (c a) → get row index = .ok (f a)) :
    getNullable get row index = .ok (x.map f) := by
  cases x with
  | none =>
    unfold getNullable
    rw [h]
    rfl
  | some a =>
    have hcell : row[index]? = some (c a) := h
    have hread := hget a rfl hcell
    unfold getNullable
    rw [hread, hcell]
    cases hkind : c a with
    | null => exact absurd hkind (hnull a)
    | integer | real | text | blob => rfl

/-- The columns of a quality and a value kind meet the table's constraints. -/
theorem valueColumns_admitted {sample : Sample} {v : StoredValue} (h : valueColumns sample.value = .ok v) :
    ((qualityText sample.quality = "good" ∧ sample.failure = none ∧ v.valueKind ≠ "none") ∨
      (qualityText sample.quality = "unavailable" ∧ sample.failure ≠ none ∧ v.valueKind = "none")) ∧
    ((v.valueKind = "none" ∧ v.floatValue = .null ∧ v.integerValue = .null ∧ v.boolValue = .null ∧
        v.textValue = .null) ∨
      (v.valueKind = "float" ∧ v.floatValue ≠ .null ∧ v.integerValue = .null ∧ v.boolValue = .null ∧
        v.textValue = .null) ∨
      (v.valueKind = "integer" ∧ v.floatValue = .null ∧ v.integerValue ≠ .null ∧ v.boolValue = .null ∧
        v.textValue = .null) ∨
      (v.valueKind = "boolean" ∧ v.floatValue = .null ∧ v.integerValue = .null ∧
        (v.boolValue = .integer 0 ∨ v.boolValue = .integer 1) ∧ v.textValue = .null) ∨
      ((v.valueKind = "text" ∨ v.valueKind = "enum") ∧ v.floatValue = .null ∧ v.integerValue = .null ∧
        v.boolValue = .null ∧ v.textValue ≠ .null)) := by
  obtain ⟨signal, unit, time, freshness, reading⟩ := sample
  cases reading with
  | unavailable reason =>
    cases h
    exact ⟨.inr ⟨rfl, nofun, rfl⟩, .inl ⟨rfl, rfl, rfl, rfl, rfl⟩⟩
  | good value =>
    cases value with
    | float x =>
      dsimp only [Sample.value, valueColumns] at h
      split_ifs at h
      cases h
      exact ⟨.inl ⟨rfl, rfl, by simp⟩, .inr (.inl ⟨rfl, nofun, rfl, rfl, rfl⟩)⟩
    | integer n =>
      cases h
      exact ⟨.inl ⟨rfl, rfl, by simp⟩, .inr (.inr (.inl ⟨rfl, rfl, nofun, rfl, rfl⟩))⟩
    | boolean b =>
      cases h
      refine ⟨.inl ⟨rfl, rfl, by simp⟩, .inr (.inr (.inr (.inl ⟨rfl, rfl, rfl, ?_, rfl⟩)))⟩
      cases b
      · exact .inl rfl
      · exact .inr rfl
    | text s =>
      cases h
      exact ⟨.inl ⟨rfl, rfl, by simp⟩, .inr (.inr (.inr (.inr ⟨.inl rfl, rfl, rfl, rfl, nofun⟩)))⟩
    | enum s =>
      cases h
      exact ⟨.inl ⟨rfl, rfl, by simp⟩, .inr (.inr (.inr (.inr ⟨.inr rfl, rfl, rfl, rfl, nofun⟩)))⟩

theorem rowColumns_admitted {row : RowIdentity} {m : MeasurementFact} {publishedAt observedAt : List UInt8}
    {value : StoredValue} {envelope : Option (List UInt8)} (htyped : m.Typed)
    (hvalue : valueColumns m.sample.value = .ok value) :
    (rowColumns row m publishedAt observedAt value envelope).Admitted := by
  obtain ⟨hquality, hkind⟩ := valueColumns_admitted hvalue
  have hid : 1 ≤ m.sample.unit.id.length ∧ m.sample.unit.id.length ≤ 64 := by
    have hsize := Utf8.utf8ByteSize_eq m.sample.unit.id
    have hlen := String.length_toList (s := m.sample.unit.id)
    have hascii := Utf8.size_ascii fun c hc =>
      lt_of_le_of_lt (htyped.unit.2.2 c hc).2 (by decide)
    have hpos := htyped.unit.1
    have hmax := htyped.unit.2.1
    omega
  refine ⟨by simp [rowColumns], ?_, ?_, ?_, ?_⟩
  · rintro text htext
    cases htext
    exact hid
  · show Cell.text (qualityText m.sample.quality) = _ ∨ Cell.text (qualityText m.sample.quality) = _
    cases m.sample.quality
    · exact .inl rfl
    · exact .inr rfl
  · rcases hquality with ⟨hq, hf, hk⟩ | ⟨hq, hf, hk⟩
    · refine .inl ⟨congrArg Cell.text hq, ?_, fun h => hk (Cell.text.inj h)⟩
      show nullable _ m.sample.failure = _
      rw [hf]
      rfl
    · obtain ⟨reason, hreason⟩ := Option.ne_none_iff_exists'.1 hf
      refine .inr ⟨congrArg Cell.text hq, ?_, congrArg Cell.text hk⟩
      show nullable _ m.sample.failure ≠ _
      rw [hreason]
      exact nofun
  · simpa only [rowColumns, Cell.text.injEq] using hkind

theorem transpose_lineage {json : LineageJson} (hjson : json.ShortNumbers) {m : MeasurementFact} (htyped : m.Typed)
    (htime : m.sample.time ≤ u64Max) (hread : ∀ input ∈ m.lineage, json.ReadsBack (StoredLineage.of input))
    (hvalid : ∀ input ∈ m.lineage, input.Encodable ∧ input.time ≤ m.sample.time) :
    ∃ envelope, transpose (encodeLineage json) m.lineage = .ok envelope ∧
      transpose (decodeLineage json) envelope = .ok (m.lineage.map CapturedInput.recorded) := by
  cases hlineage : m.lineage with
  | none => exact ⟨none, rfl, rfl⟩
  | some input =>
    have hmem : input ∈ m.lineage := hlineage
    obtain ⟨hencodable, hbefore⟩ := hvalid input hmem
    have hencode := encodeLineage_ok hjson (htyped.lineage input hmem) hencodable (hbefore.trans htime)
    have hdecode := decodeLineage_recorded hjson (htyped.lineage input hmem) hencodable (hbefore.trans htime)
      (hread input hmem)
    refine ⟨some (json.toVec (StoredLineage.of input)), ?_, ?_⟩
    · rw [transpose, hencode]
      rfl
    · rw [transpose, hdecode]
      rfl

/-- The columns of a validated fact are admitted, and decoded to the fact as it was recorded. -/
theorem measurementColumns_recorded {json : LineageJson} (hjson : json.ShortNumbers) {row : RowIdentity}
    {m : MeasurementFact} (htyped : m.Typed) (hsequence : row.recordSequence ≤ u64Max) (htime : m.sample.time ≤ u64Max)
    (hfresh : m.sample.freshnessTime ≤ u64Max) (hread : ∀ input ∈ m.lineage, json.ReadsBack (StoredLineage.of input))
    (hvalid : validateStorageFact json m = .ok ()) :
    ∃ columns, measurementColumns json row m = .ok columns ∧ columns.Admitted ∧
      decodeMeasurementRow json columns.selected = .ok (m.recorded row) := by
  obtain ⟨hfinite, hlineage⟩ := validateStorageFact_ok hvalid
  obtain ⟨envelope, hencode, hdecode⟩ := transpose_lineage hjson htyped htime hread hlineage
  obtain ⟨value, hvalue, hdecodeValue⟩ := valueColumns_ok m.sample.value hfinite
  refine ⟨rowColumns row m (u64Blob m.sample.time) (u64Blob m.sample.freshnessTime) value envelope, ?_, ?_, ?_⟩
  · unfold measurementColumns
    rw [durationBlob_ok htime, hvalue, hencode, durationBlob_ok hfresh]
    rfl
  · exact rowColumns_admitted htyped hvalue
  · have hstate : ∀ r ∈ m.stateRevision, r ≤ u64Max := htyped.stateRevision
    unfold decodeMeasurementRow
    rw [hdecodeValue _ rfl rfl rfl rfl rfl, getU64_of rfl hsequence, getU64_of rfl htime, getU64_of rfl hfresh,
      getText_of (s := m.sample.unit.id) rfl, getText_of (s := qualityText m.sample.quality) rfl,
      getNullable_of (fun reason => .text (failureText reason)) failureText m.sample.failure rfl (fun _ => nofun)
        fun _ _ h => getText_of h,
      getU64_of rfl htyped.generation, getU64_of rfl htyped.revision,
      getNullable_of (fun r => .blob (u64Blob r)) id m.stateRevision rfl (fun _ => nofun)
        fun r hr h => getU64_of h (hstate r hr),
      getNullable_of .blob id envelope rfl (fun _ => nofun) fun bytes _ h => getBlob_of h]
    simp only [Option.map_id, id, Checks.ok_bind]
    rw [hdecode]
    rfl

/-- A measurement fact that validation accepts is stored in columns the table admits, and these
are decoded to the fact as it was recorded; the envelope of a lineage is always encoded and loses
nothing. -/
theorem measurement_reads_back (json : LineageJson) (hjson : json.ShortNumbers) :
    (∀ (row : RowIdentity) (m : MeasurementFact), m.Typed → row.recordSequence ≤ u64Max → m.sample.time ≤ u64Max →
      m.sample.freshnessTime ≤ u64Max → (∀ input ∈ m.lineage, json.ReadsBack (StoredLineage.of input)) →
      validateStorageFact json m = .ok () →
      ∃ columns, measurementColumns json row m = .ok columns ∧ columns.Admitted ∧
        decodeMeasurementRow json columns.selected = .ok (m.recorded row)) ∧
    (∀ input : CapturedInput, input.Typed → input.Encodable → input.time ≤ u64Max →
      json.ReadsBack (StoredLineage.of input) →
      ∃ bytes, encodeLineage json input = .ok bytes ∧ decodeLineage json bytes = .ok input.recorded) := by
  refine ⟨fun row m htyped hsequence htime hfresh hread hvalid => ?_, fun input htyped hencodable htime hread => ?_⟩
  · exact measurementColumns_recorded hjson htyped hsequence htime hfresh hread hvalid
  · exact ⟨_, encodeLineage_ok hjson htyped hencodable htime, decodeLineage_recorded hjson htyped hencodable htime hread⟩

/-- One and a half. -/
def sampleNumber : F64 := ⟨0x3ff8000000000000⟩

def sampleInput : CapturedInput :=
  { signal := ⟨1, 1⟩, value := sampleNumber, unit := .celsius, time := 1500, freshnessTime := 1000,
    sourceGeneration := 1, sourceRevision := 1, sourceStateRevision := none }

def sampleFact : MeasurementFact :=
  { sequence := 1
    sample := { signal := ⟨2, 1⟩, unit := .celsius, time := 2000, freshnessTime := 1000,
                reading := .good (.float sampleNumber) }
    generation := 1, revision := 1, stateRevision := some 3, lineage := some sampleInput }

def sampleEnvelope : List UInt8 := LineageJson.toVec ⟨fun _ => "1.5", fun _ => none⟩ (StoredLineage.of sampleInput)

/-- The parser on the sample's envelope. -/
def readSample (bytes : List UInt8) : Option StoredLineage :=
  if bytes = sampleEnvelope then some (StoredLineage.of sampleInput) else none

def sampleJson : LineageJson := ⟨fun _ => "1.5", readSample⟩

/-- The envelope depends on how numbers are printed only. -/
theorem toVec_congr {json json' : LineageJson} (h : json.number = json'.number) (s : StoredLineage) :
    json.toVec s = json'.toVec s := by
  unfold LineageJson.toVec LineageJson.toText LineageJson.fields
  rw [h]

theorem sampleInput_typed : sampleInput.Typed :=
  ⟨by decide, by decide, celsius_typed, by decide, by decide, nofun⟩

theorem sample_reads_back :
    ∃ columns, measurementColumns sampleJson ⟨[], 7, 1⟩ sampleFact = .ok columns ∧ columns.Admitted ∧
      decodeMeasurementRow sampleJson columns.selected = .ok (sampleFact.recorded ⟨[], 7, 1⟩) := by
  have hjson : sampleJson.ShortNumbers := fun _ _ => (by decide : "1.5".utf8ByteSize ≤ 24)
  have henvelope : sampleJson.toVec (StoredLineage.of sampleInput) = sampleEnvelope := by
    unfold sampleEnvelope
    exact toVec_congr (funext fun _ => rfl) _
  have hparser : sampleJson.fromSlice = readSample := rfl
  have hread : ∀ input ∈ sampleFact.lineage, sampleJson.ReadsBack (StoredLineage.of input) := by
    intro input hinput
    obtain rfl : sampleInput = input := Option.some.inj hinput
    unfold LineageJson.ReadsBack
    rw [henvelope, hparser]
    unfold readSample
    rw [if_pos rfl]
  have hencode := encodeLineage_ok hjson sampleInput_typed ⟨by decide, by decide, by decide, by decide⟩ (by decide)
  have htyped : sampleFact.Typed :=
    ⟨by decide, by decide, celsius_typed, by decide, by decide,
      fun r hr => by cases hr; decide, fun input hinput => by cases hinput; exact sampleInput_typed⟩
  refine (measurement_reads_back sampleJson hjson).1 ⟨[], 7, 1⟩ sampleFact htyped (by decide) (by decide) (by decide)
    hread ?_
  show (Checks.reject _ _ >>= fun _ => Checks.reject _ _ >>= fun _ => Checks.reject _ _ >>= fun _ =>
    encodeLineage sampleJson sampleInput >>= fun _ => .ok ()) = .ok ()
  rw [hencode, Checks.reject_pass (by decide), Checks.reject_pass (by decide), Checks.reject_pass (by decide)]
  rfl

end LabRuntime.Archive
