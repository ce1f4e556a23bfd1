import LabRuntime.Lib.ShiftRegister
import LabRuntime.Metakon

/-! The checksum of a Metakon frame as a linear shift register: a frame that is accepted leaves it empty, so no burst
of up to eight bits in transmission order makes another accepted frame of it. -/

namespace LabRuntime.Metakon

/-- The taps of the checksum: the feedback into bit seven and, one place down, the `0x18` of the source. -/
def crcTaps : BitVec 8 := 0x8c

/-- The bits of a byte as they are sent, least significant first. -/
def byteBits (byte : UInt8) : List Bool := (List.range 8).map byte.toBitVec.getLsbD

def frameBits (bytes : List UInt8) : List Bool := bytes.flatMap byteBits

/-! ### The checksum and the register -/

theorem crcBit_toBitVec (data checksum : UInt8) :
    (crcBit data checksum).toBitVec = ShiftRegister.step crcTaps checksum.toBitVec (data.toBitVec.getLsbD 0) := by
  have hlow : ((data ^^^ checksum) &&& 1).toBitVec =
      BitVec.setWidth 8 (BitVec.ofBool (checksum.toBitVec.getLsbD 0 ^^ data.toBitVec.getLsbD 0)) := by
    rw [UInt8.toBitVec_and, UInt8.toBitVec_xor, Bool.xor_comm, ← BitVec.getLsbD_xor]
    exact BitVec.and_one_eq_setWidth_ofBool_getLsbD
  unfold crcBit ShiftRegister.step
  cases hfeedback : checksum.toBitVec.getLsbD 0 ^^ data.toBitVec.getLsbD 0 with
  | false =>
    rw [hfeedback] at hlow
    obtain hzero : (data ^^^ checksum) &&& 1 = 0 := UInt8.toBitVec_inj.1 hlow
    simp [hzero]
  | true =>
    rw [hfeedback] at hlow
    obtain hone : (data ^^^ checksum) &&& 1 = 1 := UInt8.toBitVec_inj.1 hlow
    have htaps : ∀ c : BitVec 8, ((c ^^^ 0x18#8) >>> 1) ||| (1#8 <<< 7) = (c >>> 1) ^^^ crcTaps := by decide +kernel
    simpa [hone] using htaps checksum.toBitVec

theorem shifted_lowest (byte : UInt8) {bit : ℕ} (h : bit < 8) :
    (byte >>> bit.toUInt8).toBitVec.getLsbD 0 = byte.toBitVec.getLsbD bit := by
  have hbit : bit.toUInt8.toBitVec % 8 = BitVec.ofNat 8 bit := by
    interval_cases bit <;> rfl
  rw [UInt8.toBitVec_shiftRight, hbit, BitVec.ushiftRight_eq', BitVec.toNat_ofNat, Nat.mod_eq_of_lt (by omega),
    BitVec.getLsbD_ushiftRight, Nat.add_zero]

theorem crcByte_toBitVec (checksum byte : UInt8) :
    (crcByte checksum byte).toBitVec = ShiftRegister.feed crcTaps checksum.toBitVec (byteBits byte) := by
  have hfold : ∀ bits : List ℕ, (∀ bit ∈ bits, bit < 8) → ∀ checksum : UInt8,
      (bits.foldl (fun checksum bit => crcBit (byte >>> bit.toUInt8) checksum) checksum).toBitVec =
        ShiftRegister.feed crcTaps checksum.toBitVec (bits.map byte.toBitVec.getLsbD) := by
    intro bits
    induction bits with
    | nil => exact fun _ _ => rfl
    | cons bit bits ih =>
      intro hbits checksum
      obtain ⟨hbit, hbits⟩ := List.forall_mem_cons.1 hbits
      rw [List.foldl_cons, ih hbits, crcBit_toBitVec, shifted_lowest byte hbit, List.map_cons, ShiftRegister.feed_cons]
  exact hfold (List.range 8) (fun bit => List.mem_range.1) checksum

/-- A byte empties the register exactly if it is what the register holds. -/
theorem crcByte_eq_zero (checksum byte : UInt8) : crcByte checksum byte = 0 ↔ checksum = byte := by
  have hlength : (byteBits byte).length ≤ 8 := by simp [byteBits]
  rw [← UInt8.toBitVec_inj, crcByte_toBitVec]
  refine (ShiftRegister.feed_eq_zero (by decide) hlength checksum.toBitVec).trans ?_
  have hbits : ∀ i, (byteBits byte).getD i false = byte.toBitVec.getLsbD i := by
    intro i
    by_cases hi : i < 8
    · simp [byteBits, List.getD_eq_getElem?_getD, hi]
    · rw [List.getD_eq_default _ _ (by simp [byteBits]; omega), BitVec.getLsbD_of_ge _ _ (by omega)]
  refine ⟨fun h => UInt8.toBitVec_inj.1 (BitVec.eq_of_getLsbD_eq fun i _ => ?_), fun h i => ?_⟩
  · rw [h i, hbits]
  · rw [h, hbits]

theorem crc_toBitVec (bytes : List UInt8) : (crc bytes).toBitVec = ShiftRegister.feed crcTaps 0xff (frameBits bytes) := by
  have hfold : ∀ checksum : UInt8, (bytes.foldl crcByte checksum).toBitVec =
      ShiftRegister.feed crcTaps checksum.toBitVec (frameBits bytes) := by
    induction bytes with
    | nil => exact fun _ => rfl
    | cons byte bytes ih =>
      intro checksum
      rw [frameBits, List.flatMap_cons, ShiftRegister.feed_append, ← crcByte_toBitVec]
      exact ih _
  exact hfold 0xff

/-- A frame that passes its check leaves the register empty. -/
theorem validated_empty {bytes : List UInt8} (h : validateBoundAndCrc bytes = .ok ()) :
    ShiftRegister.feed crcTaps 0xff (frameBits bytes) = 0 := by
  unfold validateBoundAndCrc at h
  split_ifs at h
  cases hlast : bytes.getLast? with
  | none => simp [hlast] at h
  | some received =>
    simp only [hlast] at h
    split_ifs at h with hcrc
    have hreceived := not_not.1 hcrc
    have hframe : bytes = bytes.dropLast ++ [received] := (List.dropLast_append_getLast? received hlast).symm
    have hzero : crc (bytes.dropLast ++ [received]) = 0 := by
      unfold crc at hreceived ⊢
      rw [List.foldl_append, hreceived]
      exact (crcByte_eq_zero received received).2 rfl
    rw [← crc_toBitVec, hframe, hzero]
    rfl

/-! ### Bursts -/

/-- One frame made from another of its length by changing some bits within eight that are sent one after another. -/
structure Burst (start : ℕ) (bytes bytes' : List UInt8) : Prop where
  length : bytes'.length = bytes.length
  changed : bytes' ≠ bytes
  window : ∀ i, (frameBits bytes)[i]? ≠ (frameBits bytes')[i]? → start ≤ i ∧ i < start + 8

theorem byteBits_injective {a b : UInt8} (h : byteBits a = byteBits b) : a = b := by
  refine UInt8.toBitVec_inj.1 (BitVec.eq_of_getLsbD_eq fun i hi => ?_)
  exact List.map_inj_left.1 h i (List.mem_range.2 hi)

theorem length_frameBits (bytes : List UInt8) : (frameBits bytes).length = bytes.length * 8 := by
  simp [frameBits, byteBits, List.length_flatMap]

theorem frameBits_injective {xs ys : List UInt8} (h : frameBits xs = frameBits ys) : xs = ys := by
  have hbyte : ∀ b : UInt8, (byteBits b).length = 8 := fun b => by simp [byteBits]
  induction xs generalizing ys with
  | nil =>
    cases ys with
    | nil => rfl
    | cons b ys =>
      have hlen := congrArg List.length h
      rw [length_frameBits, length_frameBits] at hlen
      cases hlen
  | cons a xs ih =>
    cases ys with
    | nil =>
      have hlen := congrArg List.length h
      rw [length_frameBits, length_frameBits] at hlen
      cases hlen
    | cons b ys =>
      rw [frameBits, frameBits, List.flatMap_cons, List.flatMap_cons] at h
      obtain ⟨hhead, htail⟩ := List.append_inj h ((hbyte a).trans (hbyte b).symm)
      rw [byteBits_injective hhead, ih htail]

/-- A burst fails the check of a frame that passed it. -/
theorem burst_fails_check {start : ℕ} {bytes bytes' : List UInt8} (h : Burst start bytes bytes')
    (hvalid : validateBoundAndCrc bytes = .ok ()) : validateBoundAndCrc bytes' ≠ .ok () := by
  intro hvalid'
  refine h.changed (frameBits_injective (Eq.symm ?_))
  have hlen : (frameBits bytes).length = (frameBits bytes').length := by
    rw [length_frameBits, length_frameBits, h.length]
  have hfeed : ShiftRegister.feed crcTaps 0xff (frameBits bytes) = ShiftRegister.feed crcTaps 0xff (frameBits bytes') := by
    rw [validated_empty hvalid, validated_empty hvalid']
  exact ShiftRegister.burst_eq (by decide) (by decide) hlen hfeed h.window

theorem decodeRead_validated {bytes : List UInt8} {expected : ExpectedRead} {value : MetakonValue}
    (h : decodeRead bytes expected = .ok value) : validateBoundAndCrc bytes = .ok () := by
  unfold decodeRead at h
  by_cases hlong : bytes.length > maxFrameBytes
  · rw [if_pos hlong] at h
    cases h
  rw [if_neg hlong] at h
  by_cases hlen : bytes.length ≠ expected.frameLen
  · rw [if_pos hlen] at h
    cases h
  rw [if_neg hlen] at h
  cases hvalid : validateBoundAndCrc bytes with
  | error error => simp [hvalid] at h
  | ok u => rfl

theorem decodeAck_validated {bytes : List UInt8} {expected : Address} (h : decodeAck bytes expected = .ok ()) :
    validateBoundAndCrc bytes = .ok () := by
  unfold decodeAck at h
  by_cases hlong : bytes.length > maxFrameBytes
  · rw [if_pos hlong] at h
    cases h
  rw [if_neg hlong] at h
  by_cases hlen : bytes.length ≠ 5
  · rw [if_pos hlen] at h
    cases h
  rw [if_neg hlen] at h
  cases hvalid : validateBoundAndCrc bytes with
  | error error => simp [hvalid] at h
  | ok u => rfl

/-- No burst of up to eight bits makes an accepted response or acknowledgement of an accepted one. -/
theorem burst_rejected {start : ℕ} {bytes bytes' : List UInt8} (h : Burst start bytes bytes') :
    (∀ expected value, decodeRead bytes expected = .ok value → ∃ error, decodeRead bytes' expected = .error error) ∧
      ∀ expected, decodeAck bytes expected = .ok () → ∃ error, decodeAck bytes' expected = .error error := by
  refine ⟨fun expected value hread => ?_, fun expected hack => ?_⟩
  · cases hread' : decodeRead bytes' expected with
    | error error => exact ⟨error, rfl⟩
    | ok value' => exact absurd (decodeRead_validated hread') (burst_fails_check h (decodeRead_validated hread))
  · cases hack' : decodeAck bytes' expected with
    | error error => exact ⟨error, rfl⟩
    | ok u => exact absurd (decodeAck_validated hack') (burst_fails_check h (decodeAck_validated hack))

/-- The acknowledgement of a write, and the same bytes with two bits of the checksum changed. -/
theorem ack_burst_rejected : decodeAck [1, 2, 6, 1, 0xdf] { device := 1, channel := 2, register := 6 } = .ok () ∧
    ∃ error, decodeAck [1, 2, 6, 1, 0x7f] { device := 1, channel := 2, register := 6 } = .error error := by
  have hburst : Burst 36 [1, 2, 6, 1, 0xdf] [1, 2, 6, 1, 0x7f] := by
    have hwindow : ((List.range 40).all fun i =>
        decide ((frameBits [1, 2, 6, 1, 0xdf])[i]? = (frameBits [1, 2, 6, 1, 0x7f])[i]?) ||
          decide (36 ≤ i ∧ i < 36 + 8)) = true := by decide +kernel
    refine ⟨by simp only [List.length_cons, List.length_nil], by decide +kernel, fun i hne => ?_⟩
    by_cases hi : i < 40
    · have hbit := List.all_eq_true.1 hwindow i (List.mem_range.2 hi)
      simpa only [hne, decide_false, Bool.false_or, decide_eq_true_eq] using hbit
    · rw [List.getElem?_eq_none (by rw [length_frameBits]; exact not_lt.1 hi),
        List.getElem?_eq_none (by rw [length_frameBits]; exact not_lt.1 hi)] at hne
      exact absurd rfl hne
  have hack : decodeAck [1, 2, 6, 1, 0xdf] { device := 1, channel := 2, register := 6 } = .ok () := by
    decide +kernel
  exact ⟨hack, (burst_rejected hburst).2 _ hack⟩

end LabRuntime.Metakon
