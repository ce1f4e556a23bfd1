import LabRuntime.Lib.Utf8
import LabRuntime.Recorder.Protection
import LabRuntime.Recording.Loss

/-! From the outbox of facts to the ingress of the recorder. The outbox charges what a fact holds in
memory, the recorder what it may take to encode it, so a group that the outbox could hold may be
more than the recorder takes in one. -/

namespace LabRuntime

/-- The text a measurement carries. -/
def Sample.text (sample : Sample) : Option String :=
  match sample.value with
  | some (.text value) | some (.enum value) => some value
  | _ => none

namespace RecordingFact

def withSequence (n : ℕ) : RecordingFact → RecordingFact
  | .measurement _ sample generation revision => .measurement n sample generation revision
  | .output _ actuator attemptId dispatchId unit authorityEpoch resource bindingGeneration mappingRevision stage value source
      time =>
    .output n actuator attemptId dispatchId unit authorityEpoch resource bindingGeneration mappingRevision stage value source
      time
  | .controller _ id state configRevision pid time => .controller n id state configRevision pid time
  | .reference _ id revision value target rate unit time => .reference n id revision value target rate unit time

theorem sequence_withSequence (n : ℕ) (fact : RecordingFact) : (fact.withSequence n).sequence = n := by
  cases fact <;> rfl

/-- What the recorder reads of a captured fact: `spare` is the unused allocation of its text. -/
def seen (spare : ℕ) (lineage : Bool) : RecordingFact → Recorder.Fact
  | .measurement sequence sample _ _ => .measurement sequence (sample.text.map fun text => ⟨text, spare⟩) lineage
  | .output sequence .. => .output sequence
  | .controller sequence .. => .controller sequence
  | .reference sequence .. => .reference sequence

end RecordingFact

namespace Recorder

/-- What the outbox charges for a fact. -/
def coreCharge : Fact → ℕ
  | .measurement _ text _ => 256 + text.elim 0 Text.capacity
  | .output _ => 128
  | .controller _ => 256
  | .reference _ => 256

/-- A text within the bound of every value specification. -/
def Fact.InSpec : Fact → Prop
  | .measurement _ text _ => ∀ value ∈ text, value.len ≤ maxTextBytes
  | _ => True

/-- A text whose allocation is not far beyond it; a clone has none to spare. -/
def Fact.Compact : Fact → Prop
  | .measurement _ text _ => ∀ value ∈ text, value.spare ≤ 56 * 1024
  | _ => True

/-- A fact on its way into the outbox. -/
structure Capture where
  fact : RecordingFact
  spare : ℕ
  lineage : Bool

namespace Capture

def seen (c : Capture) (n : ℕ) : Fact := (c.fact.withSequence n).seen c.spare c.lineage

def draft (c : Capture) : FactOutbox.Draft where
  bytes := coreCharge (c.seen 0)
  create n := c.fact.withSequence n
  numbered n := c.fact.sequence_withSequence n

end Capture

inductive HandoffOp
  | enable
  | disable
  | push (capture : Capture)
  | loseCorrelation
  | take

/-- The outbox, and the facts it holds as the recorder will read them. -/
structure Handoff where
  outbox : FactOutbox
  queued : List Fact

namespace Handoff

def empty : Handoff := ⟨.empty, []⟩

def push (h : Handoff) (c : Capture) : Handoff :=
  let outbox := h.outbox.push c.draft.bytes c.draft.create
  { outbox
    queued := if h.outbox.facts.length < outbox.facts.length then h.queued ++ [c.seen outbox.nextSequence] else h.queued }

def step (h : Handoff) : HandoffOp → Handoff
  | .enable => { h with outbox := h.outbox.enable }
  | .disable => { outbox := h.outbox.disable, queued := [] }
  | .push c => h.push c
  | .loseCorrelation => { h with outbox := h.outbox.loseCorrelation }
  | .take => { outbox := h.outbox.take.2, queued := [] }

def run (h : Handoff) (ops : List HandoffOp) : Handoff := ops.foldl step h

/-- The group that a take transfers, in a vector with `spare` unused slots. -/
def group (h : Handoff) (spare : ℕ) : Group := ⟨h.queued, spare⟩

/-- What the outbox keeps of its bounds, in terms of the facts as they are read later. -/
structure Kept (h : Handoff) : Prop where
  facts : List.Forall₂ (fun fact queued => ∃ spare lineage, queued = fact.seen spare lineage) h.outbox.facts h.queued
  count : h.queued.length ≤ maxRecordingFacts
  charged : (h.queued.map coreCharge).sum = h.outbox.bytes
  bytes : h.outbox.bytes ≤ maxRecordingFactBytes

theorem coreCharge_seen (c : Capture) (m n : ℕ) : coreCharge (c.seen m) = coreCharge (c.seen n) := by
  obtain ⟨fact, spare, lineage⟩ := c
  cases fact <;> rfl

/-- A push retains the fact and charges it, or it holds what it held. -/
theorem push_cases (h : Handoff) (c : Capture) :
    ((h.push c).outbox.facts = h.outbox.facts ∧ (h.push c).outbox.bytes = h.outbox.bytes ∧ (h.push c).queued = h.queued) ∨
      ∃ n, h.outbox.facts.length < maxRecordingFacts ∧ h.outbox.bytes + coreCharge (c.seen n) ≤ maxRecordingFactBytes ∧
        (h.push c).outbox.facts = h.outbox.facts ++ [c.fact.withSequence n] ∧
        (h.push c).outbox.bytes = h.outbox.bytes + coreCharge (c.seen n) ∧ (h.push c).queued = h.queued ++ [c.seen n] := by
  have hsame (outbox : FactOutbox) (hpush : h.outbox.push c.draft.bytes c.draft.create = outbox)
      (hfacts : outbox.facts = h.outbox.facts) (hbytes : outbox.bytes = h.outbox.bytes) :
      (h.push c).outbox.facts = h.outbox.facts ∧ (h.push c).outbox.bytes = h.outbox.bytes ∧ (h.push c).queued = h.queued := by
    unfold push
    rw [hpush]
    exact ⟨hfacts, hbytes, if_neg (by rw [hfacts]; exact lt_irrefl _)⟩
  cases henabled : h.outbox.enabled with
  | false => exact .inl (hsame _ (FactOutbox.push_disabled henabled _ _) rfl rfl)
  | true =>
    rcases FactOutbox.push_cases henabled c.draft with hlost | ⟨-, -, hcount, hbytes, hpush⟩
    · exact .inl (hsame _ hlost (FactOutbox.loseCorrelation_held _).1 (FactOutbox.loseCorrelation_held _).2)
    · refine .inr ⟨h.outbox.nextSequence + 1, hcount, ?_, ?_⟩
      · rw [coreCharge_seen c _ 0]
        exact hbytes
      · unfold push
        rw [hpush, coreCharge_seen c _ 0]
        exact ⟨rfl, rfl, if_pos (by simp)⟩

theorem Kept.empty : Handoff.empty.Kept := ⟨.nil, Nat.zero_le _, rfl, Nat.zero_le _⟩

theorem Kept.step {h : Handoff} (hkept : h.Kept) (op : HandoffOp) : (h.step op).Kept := by
  cases op with
  | enable => exact { hkept with }
  | disable | take => exact ⟨.nil, Nat.zero_le _, rfl, Nat.zero_le _⟩
  | loseCorrelation =>
    obtain ⟨hfacts, hbytes⟩ := FactOutbox.loseCorrelation_held h.outbox
    exact ⟨hfacts.symm ▸ hkept.facts, hkept.count, hkept.charged.trans hbytes.symm, hbytes.symm ▸ hkept.bytes⟩
  | push c =>
    rcases h.push_cases c with ⟨hfacts, hbytes, hqueued⟩ | ⟨n, hcount, hfits, hfacts, hbytes, hqueued⟩
    · refine ⟨?_, ?_, ?_, ?_⟩
      · exact hqueued.symm ▸ hfacts.symm ▸ hkept.facts
      · exact hqueued.symm ▸ hkept.count
      · exact hqueued.symm ▸ hbytes.symm ▸ hkept.charged
      · exact hbytes.symm ▸ hkept.bytes
    · have hlength := hkept.facts.length_eq
      refine ⟨?_, ?_, ?_, ?_⟩
      · have hlast : List.Forall₂ (fun fact queued => ∃ spare lineage, queued = RecordingFact.seen spare lineage fact)
            [c.fact.withSequence n] [c.seen n] := .cons ⟨c.spare, c.lineage, rfl⟩ .nil
        exact hqueued.symm ▸ hfacts.symm ▸ List.rel_append hkept.facts hlast
      · exact hqueued.symm ▸ (by rw [List.length_append, List.length_singleton]; omega)
      · exact hqueued.symm ▸ hbytes.symm ▸ (by simp [hkept.charged])
      · exact hbytes.symm ▸ hfits

theorem Kept.run {h : Handoff} (hkept : h.Kept) (ops : List HandoffOp) : (h.run ops).Kept := by
  induction ops generalizing h with
  | nil => exact hkept
  | cons op ops ih => exact ih (hkept.step op)

/-- Queued facts are pushed facts. -/
theorem run_queued {P : Fact → Prop} (ops : List HandoffOp) (hops : ∀ c, .push c ∈ ops → ∀ n, P (c.seen n)) {h : Handoff}
    (hqueued : ∀ fact ∈ h.queued, P fact) : ∀ fact ∈ (h.run ops).queued, P fact := by
  induction ops generalizing h with
  | nil => exact hqueued
  | cons op ops ih =>
    refine ih (fun c hc => hops c (List.mem_cons_of_mem _ hc)) fun fact hfact => ?_
    cases op with
    | enable | loseCorrelation => exact hqueued fact hfact
    | disable | take => exact absurd hfact List.not_mem_nil
    | push c =>
      rcases h.push_cases c with ⟨-, -, hsame⟩ | ⟨n, -, -, -, -, hmore⟩
      · exact hqueued fact (hsame ▸ hfact)
      · have hfact : fact ∈ h.queued ++ [c.seen n] := hmore ▸ hfact
        rcases List.mem_append.1 hfact with hold | hnew
        · exact hqueued fact hold
        · exact List.mem_singleton.1 hnew ▸ hops c List.mem_cons_self n

end Handoff

/-- Pushes that the bounds allow are all retained. -/
theorem Handoff.run_replicate {h : Handoff} {c : Capture} (n : ℕ) (henabled : h.outbox.enabled = true)
    (hover : h.outbox.overflowed = false) (hnext : h.outbox.nextSequence + n ≤ u64Max)
    (hcount : h.outbox.facts.length + n ≤ maxRecordingFacts)
    (hbytes : h.outbox.bytes + n * c.draft.bytes ≤ maxRecordingFactBytes) :
    (h.run (List.replicate n (.push c))).outbox.overflowed = false ∧
      ∃ numbers : List ℕ, numbers.length = n ∧ (h.run (List.replicate n (.push c))).queued = h.queued ++ numbers.map c.seen := by
  induction n generalizing h with
  | zero => exact ⟨hover, [], rfl, (List.append_nil _).symm⟩
  | succ n ih =>
    rw [Nat.succ_mul] at hbytes
    have hmax : maxRecordingFactBytes ≤ u64Max := by decide
    have hnumber : checkedAdd h.outbox.nextSequence 1 = some (h.outbox.nextSequence + 1) :=
      checkedAdd_eq_some.2 ⟨rfl, by omega⟩
    have hcharge : checkedAdd h.outbox.bytes c.draft.bytes = some (h.outbox.bytes + c.draft.bytes) :=
      checkedAdd_eq_some.2 ⟨rfl, by omega⟩
    let outbox : FactOutbox :=
      { h.outbox with
        nextSequence := h.outbox.nextSequence + 1, bytes := h.outbox.bytes + c.draft.bytes
        facts := h.outbox.facts ++ [c.draft.create (h.outbox.nextSequence + 1)] }
    have hpush : h.outbox.push c.draft.bytes c.draft.create = outbox := by
      unfold FactOutbox.push
      rw [if_pos henabled, hnumber]
      dsimp only
      rw [if_neg (by simp [hover]), hcharge]
      dsimp only
      rw [if_neg (by omega)]
    have hlonger : outbox.facts.length = h.outbox.facts.length + 1 := List.length_append
    have hstep : h.push c = ⟨outbox, h.queued ++ [c.seen (h.outbox.nextSequence + 1)]⟩ := by
      unfold Handoff.push
      rw [hpush]
      dsimp only
      rw [if_pos (by omega)]
    have hrun : h.run (List.replicate (n + 1) (.push c)) = (h.push c).run (List.replicate n (.push c)) := rfl
    rw [hrun, hstep]
    obtain ⟨hlast, numbers, hlength, hqueued⟩ := ih (h := ⟨outbox, h.queued ++ [c.seen (h.outbox.nextSequence + 1)]⟩) henabled
      hover (by show h.outbox.nextSequence + 1 + n ≤ u64Max; omega) (by dsimp only; omega)
      (by show h.outbox.bytes + c.draft.bytes + n * c.draft.bytes ≤ maxRecordingFactBytes; omega)
    refine ⟨hlast, (h.outbox.nextSequence + 1) :: numbers, by rw [List.length_cons, hlength], ?_⟩
    rw [hqueued, List.append_assoc]
    rfl

/-! ### The charge of a group -/

theorem foldl_saturated (facts : List Fact) (n : ℕ) :
    facts.foldl (fun total fact => saturated (total + factCharge fact)) (saturated n) =
      saturated (n + (facts.map factCharge).sum) := by
  induction facts generalizing n with
  | nil => rfl
  | cons fact facts ih =>
    have hstep : saturated (saturated n + factCharge fact) = saturated (n + factCharge fact) := by
      unfold saturated
      omega
    rw [List.foldl_cons, hstep, ih, List.map_cons, List.sum_cons, Nat.add_assoc]

/-- A group is too large when its vector and its facts are. -/
theorem maxGroupBytes_lt_bytes {layout : FactLayout} {group : Group} : maxGroupBytes < group.bytes layout ↔
    maxGroupBytes < group.capacity * layout.size + (group.facts.map factCharge).sum := by
  unfold Group.bytes
  rw [foldl_saturated]
  unfold saturated
  have hmax : maxGroupBytes < u64Max := by decide
  omega

/-- No record of texts within the specifications is too large. -/
theorem oversizedRecord_of_inSpec {group : Group} (hspec : ∀ fact ∈ group.facts, fact.InSpec)
    (hcompact : ∀ fact ∈ group.facts, fact.Compact) : group.oversizedRecord = false := by
  unfold Group.oversizedRecord
  rw [List.any_eq_false]
  intro fact hfact
  have hs := hspec fact hfact
  have hc := hcompact fact hfact
  rw [decide_eq_true_eq, Nat.not_lt]
  cases fact with
  | measurement sequence text lineage =>
    cases text with
    | none =>
      unfold factCharge
      simp only [Option.elim_none]
      split_ifs <;> omega
    | some text =>
      have hlen : text.len ≤ maxTextBytes := hs text rfl
      have hspare : text.spare ≤ 56 * 1024 := hc text rfl
      have hbytes : maxTextBytes = 1024 := rfl
      unfold factCharge saturated Text.capacity
      simp only [Option.elim_some]
      split_ifs <;> omega
  | output | controller | reference => exact (by decide : (512 : ℕ) ≤ 64 * 1024)

/-! ### Admission -/

variable {layout : FactLayout} {s s₁ : System layout}

/-- A group that is too large is refused for want of capacity. -/
theorem tryAdmitAt_refused {status : RecordingStatus} {group : Group} (time : ℕ) (hpoll : poll.run s = (.ok status, s₁))
    (hstate : admissibleState s₁.owner = true) (hne : group.facts ≠ []) (hlength : group.facts.length ≤ 256)
    (hlarge : maxGroupBytes < group.bytes layout) :
    ((tryAdmitAt group time).run s).1 = .error (.rejected "recorder ingress capacity exhausted") := by
  have hadmissible : ¬ (¬ admissibleState s₁.owner = true ∨ group.facts = [] ∨ 256 < group.facts.length) := by
    rintro (hbad | hbad | hbad)
    · exact hbad hstate
    · exact hne hbad
    · omega
  unfold tryAdmitAt
  rw [Procedure.run_bind_ok hpoll, Procedure.run_bind_ok (run_owner s₁), if_neg hadmissible]
  dsimp only
  rw [if_pos (.inr hlarge), Procedure.run_pure_bind]
  obtain ⟨e, s₂, hrun, -⟩ | ⟨_, s₂, hrun, heq⟩ :=
    Procedure.bind_cases (failWithGap (groupGap s₁.owner "recorder ingress capacity exhausted" group time))
      (fun _ => (reject "recorder ingress capacity exhausted" : Step layout (ℕ × ℕ))) s₁
  · -- reporting a gap never stops
    have := failWithGap_stops (P := fun _ => False)
      (groupGap s₁.owner "recorder ingress capacity exhausted" group time) s₁ e
    rw [hrun] at this
    exact (this rfl).elim
  · rw [if_pos Bool.not_false, heq]
    rfl

/-- With credit for a full group, a group is refused for want of capacity just when it is too large. -/
theorem tryAdmitAt_refused_iff {limits : RecorderLimits} {now : ℕ} (hs : Reachable limits now s) {status : RecordingStatus}
    {group : Group} (time : ℕ) (hpoll : poll.run s = (.ok status, s₁)) (hstate : admissibleState s₁.owner = true)
    (hne : group.facts ≠ []) (hlength : group.facts.length ≤ 256) (hsmall : group.oversizedRecord = false)
    (hfree : s.owner.Fits 256 maxGroupBytes) :
    ((tryAdmitAt group time).run s).1 = .error (.rejected "recorder ingress capacity exhausted") ↔
      maxGroupBytes < group.bytes layout := by
  refine ⟨fun hrefused => ?_, tryAdmitAt_refused time hpoll hstate hne hlength⟩
  by_contra hbytes
  have hcredited := hs.credited
  have hroom := hfree.funded hcredited.funded
  refine tryAdmitAt_admits group time hsmall (Nat.not_lt.1 hbytes) (fun s₂ hpath => ?_) _ hrefused rfl
  refine RecorderWorker.fits_of_funded (List.length_pos_iff.2 hne)
    (RecorderWorker.funded_charge_mono (hpath.room hcredited hroom).1 ?_)
  exact Credit.contains_iff.2 ⟨le_rfl, hlength, Nat.not_lt.1 hbytes⟩

/-- Any group the outbox hands over has a number of facts and records that the ingress takes; a
recording worker with credit for a full group refuses it for want of capacity just when its vector
and the encodings of its facts exceed the bytes of a group. -/
theorem handed_group_admitted {limits : RecorderLimits} {now : ℕ} {s : System layout} (hs : Reachable limits now s)
    (ops : List HandoffOp) (spare time : ℕ)
    (hops : ∀ c, .push c ∈ ops → ∀ n, (c.seen n).InSpec ∧ (c.seen n).Compact) :
    let group := (Handoff.empty.run ops).group spare
    group.facts.length ≤ 256 ∧ group.oversizedRecord = false ∧
      (group.facts ≠ [] → s.owner.Fits 256 maxGroupBytes → ∀ status s₁, poll.run s = (.ok status, s₁) →
        s₁.owner.cached.state = .recording →
        (((tryAdmitAt group time).run s).1 = .error (.rejected "recorder ingress capacity exhausted") ↔
          maxGroupBytes < group.capacity * layout.size + (group.facts.map factCharge).sum)) := by
  intro group
  have hkept := Handoff.Kept.empty.run ops
  have hlength : group.facts.length ≤ 256 := hkept.count
  have hqueued := Handoff.run_queued (P := fun fact => fact.InSpec ∧ fact.Compact) ops hops (h := .empty)
    fun fact hfact => absurd hfact List.not_mem_nil
  have hsmall : group.oversizedRecord = false :=
    oversizedRecord_of_inSpec (fun fact hfact => (hqueued fact hfact).1) fun fact hfact => (hqueued fact hfact).2
  refine ⟨hlength, hsmall, fun hne hfree status s₁ hpoll hstate => ?_⟩
  rw [← maxGroupBytes_lt_bytes]
  refine tryAdmitAt_refused_iff hs time hpoll ?_ hne hlength hsmall hfree
  unfold admissibleState
  rw [hstate]
  rfl

/-! ### Seventy long texts -/

@[irreducible] def longText : String := String.ofList (List.replicate 1024 'x')

/-- A measurement whose text is as long as a specification admits. -/
def longReading : Capture :=
  { fact := .measurement 0 (.good ⟨1, 1⟩ .celsius 0 (.text longText)) 1 1, spare := 0, lineage := false }

theorem longText_size : longText.utf8ByteSize = 1024 := by
  unfold longText
  rw [Utf8.utf8ByteSize_ofList, Utf8.size_ascii fun c hc => List.eq_of_mem_replicate hc ▸ (by decide), List.length_replicate]

theorem longReading_seen (n : ℕ) : longReading.seen n = .measurement n (some ⟨longText, 0⟩) false := rfl

theorem longReading_charge (n : ℕ) : factCharge (longReading.seen n) = 7680 := by
  rw [longReading_seen]
  unfold factCharge saturated Text.capacity Text.len
  simp only [Option.elim_some, longText_size]
  decide

def longReadings : List HandoffOp := .enable :: List.replicate 70 (.push longReading)

/-- The outbox holds seventy of them, which charge the recorder with more than a group. -/
theorem longReadings_held : (Handoff.empty.run longReadings).outbox.overflowed = false ∧
    (Handoff.empty.run longReadings).queued ≠ [] ∧
    ((Handoff.empty.run longReadings).queued.map factCharge).sum = 70 * 7680 := by
  have hcost : longReading.draft.bytes = 1280 := by
    have hbytes : longReading.draft.bytes = 256 + (longText.utf8ByteSize + 0) := rfl
    rw [hbytes, longText_size]
  obtain ⟨hover, numbers, hlength, hqueued⟩ := Handoff.run_replicate (h := Handoff.empty.step .enable) (c := longReading) 70 rfl
    rfl (by decide) (by decide) (by rw [hcost]; decide)
  have hrun : Handoff.empty.run longReadings = (Handoff.empty.step .enable).run (List.replicate 70 (.push longReading)) := rfl
  rw [hrun, hqueued]
  refine ⟨hover, fun hnil => ?_, ?_⟩
  · rw [List.append_eq_nil_iff, List.map_eq_nil_iff] at hnil
    rw [hnil.2] at hlength
    cases hlength
  · have hempty : (Handoff.empty.step .enable).queued = [] := rfl
    have hall : (numbers.map longReading.seen).map factCharge = numbers.map fun _ => 7680 := by
      rw [List.map_map]
      exact List.map_congr_left fun n _ => longReading_charge n
    rw [hempty, List.nil_append, hall, List.map_const', List.sum_replicate, hlength, smul_eq_mul]

theorem longReadings_inSpec : ∀ c, .push c ∈ longReadings → ∀ n, (c.seen n).InSpec ∧ (c.seen n).Compact := by
  intro c hc n
  obtain rfl : c = longReading := by
    rcases List.mem_cons.1 hc with hc | hc
    · cases hc
    · exact HandoffOp.push.inj (List.eq_of_mem_replicate hc)
  rw [longReading_seen]
  refine ⟨fun text htext => ?_, fun text htext => ?_⟩
  · cases htext
    exact longText_size.le
  · cases htext
    exact Nat.zero_le _

/-- A recorder that has started, with all of its credit free. -/
def startedSystem : System heaterLayout := History.after System.step (.opened .default 0) (startCooling :: served)

theorem startedSystem_reachable : Reachable .default 0 startedSystem :=
  reachable_after .default 0 (startCooling :: served)

theorem startedSystem_free : startedSystem.owner.Fits 256 maxGroupBytes := by
  refine ⟨protectedCredit heaterLayout, ?_, ?_⟩ <;> decide +kernel

/-- The started recorder is still recording once polled. -/
theorem startedSystem_polled : ∃ status s₁, poll.run startedSystem = (.ok status, s₁) ∧ s₁.owner.cached.state = .recording := by
  have hstate : ((poll : Step heaterLayout RecordingStatus).run startedSystem).2.owner.cached.state = .recording := by
    decide +kernel
  have hok : ((poll : Step heaterLayout RecordingStatus).run startedSystem).1.isOk = true := by decide +kernel
  rcases hrun : (poll : Step heaterLayout RecordingStatus).run startedSystem with ⟨e | status, s₁⟩
  · rw [hrun] at hok
    cases hok
  · rw [hrun] at hstate
    exact ⟨status, s₁, rfl, hstate⟩

/-- The started recorder refuses what charges it with seventy of them. -/
theorem startedSystem_refuses {h : Handoff} (hne : h.queued ≠ []) (hlength : h.queued.length ≤ 256)
    (hcharge : (h.queued.map factCharge).sum = 70 * 7680) :
    ((tryAdmitAt (h.group 0) 0).run startedSystem).1 = .error (.rejected "recorder ingress capacity exhausted") := by
  obtain ⟨status, s₁, hpoll, hstate⟩ := startedSystem_polled
  refine tryAdmitAt_refused 0 hpoll ?_ hne hlength (maxGroupBytes_lt_bytes.2 ?_)
  · unfold admissibleState
    rw [hstate]
    rfl
  · have hsum : ((h.group 0).facts.map factCharge).sum = 70 * 7680 := hcharge
    have hmax : maxGroupBytes < 70 * 7680 := by decide
    omega

/-- Not every group that the outbox holds without overflow is within the bytes of a group. -/
theorem outbox_exceeds_ingress :
    ¬ ∀ (ops : List HandoffOp) (spare time : ℕ) (s : System heaterLayout), Reachable .default 0 s →
      (∀ c, .push c ∈ ops → ∀ n, (c.seen n).InSpec ∧ (c.seen n).Compact) →
      (Handoff.empty.run ops).outbox.overflowed = false → (Handoff.empty.run ops).queued ≠ [] →
      s.owner.Fits 256 maxGroupBytes →
      (∃ status s₁, poll.run s = (.ok status, s₁) ∧ s₁.owner.cached.state = .recording) →
      ((tryAdmitAt ((Handoff.empty.run ops).group spare) time).run s).1 ≠
        .error (.rejected "recorder ingress capacity exhausted") := by
  intro h
  obtain ⟨hover, hne, hcharge⟩ := longReadings_held
  have hlength := (Handoff.Kept.empty.run longReadings).count
  exact h longReadings 0 0 startedSystem startedSystem_reachable longReadings_inSpec hover hne startedSystem_free
    startedSystem_polled (startedSystem_refuses hne hlength hcharge)

def shortGroup : List HandoffOp :=
  [.enable, .push ⟨.controller 0 1 .running 1 none 0, 0, false⟩,
   .push ⟨.measurement 0 (.unavailable ⟨1, 1⟩ .celsius 0 .sensorFault) 1 1, 0, true⟩]

/-- A group of two facts is taken. -/
theorem short_group_admitted :
    ((tryAdmitAt ((Handoff.empty.run shortGroup).group 2) 0).run startedSystem).1 ≠
      .error (.rejected "recorder ingress capacity exhausted") := by
  obtain ⟨status, s₁, hpoll, hstate⟩ := startedSystem_polled
  have hops : ∀ c, .push c ∈ shortGroup → ∀ n, (c.seen n).InSpec ∧ (c.seen n).Compact := by
    intro c hc n
    rcases List.mem_cons.1 hc with hc | hc
    · cases hc
    · rcases List.mem_cons.1 hc with hc | hc
      · cases hc
        exact ⟨trivial, trivial⟩
      · cases List.mem_singleton.1 hc
        exact ⟨nofun, nofun⟩
  obtain ⟨-, -, hiff⟩ := handed_group_admitted startedSystem_reachable shortGroup 2 0 hops
  intro hrefused
  exact absurd ((hiff (by decide +kernel) startedSystem_free status s₁ hpoll hstate).1 hrefused) (by decide +kernel)

end Recorder

end LabRuntime
