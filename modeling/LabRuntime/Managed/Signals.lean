import LabRuntime.Managed.Threads
import LabRuntime.Signal.Attempts

/-! What a managed component shows to the rest of the owner: a Good sample only of the last committed step of its generation,
and only while it is Ready. -/

namespace LabRuntime.ManagedRuntime

open Lines (line)

variable {σ ε : Type} {s s' : ManagedRuntime σ ε}

/-- The Good sample of a committed step. -/
def goodSample (c : PublishedComponent) (entry : CommittedStep) (value : F64) : Sample :=
  { signal := c.signalId
    unit := c.definition.manifest.unit
    time := entry.time
    freshnessTime := entry.sourceTime
    reading := .good (.float value) }

/-- A Ready component shows its last committed step; any other shows nothing Good. -/
structure Shows (earlier : List CommittedStep) (c : PublishedComponent) : Prop where
  ready : c.state = .ready → ∃ last value, earlier.getLast? = some last ∧ last.value = some value ∧
    c.signal.latest = some (goodSample c last value)
  other : c.state ≠ .ready → ∀ sample, c.signal.latest = some sample → sample.quality = .unavailable

theorem invalidate_latest {b : SignalBuffer} {now : ℕ} {last : Sample} (hlast : b.latest = some last) (hle : last.time ≤ now)
    (reason : MeasurementFailure) : (b.invalidate now reason).2.latest = some (.unavailable b.id last.unit now reason) := by
  unfold SignalBuffer.invalidate
  rw [hlast]
  dsimp only
  rw [if_neg (not_lt.2 hle)]
  split_ifs with heq
  · simp [SignalBuffer.latest]
  · have hbefore : b.Before now := by
      intro sample hsample
      rw [hlast] at hsample
      obtain rfl := Option.some.inj hsample
      omega
    obtain ⟨b', hpush, hlatest, -⟩ := SignalBuffer.push_of_before (show (Sample.unavailable b.id last.unit now reason).signal = b.id from rfl) hbefore
    simp only [hpush]
    exact hlatest

theorem invalidate_early {b : SignalBuffer} {now : ℕ} {last : Sample} (hlast : b.latest = some last) (hlt : now < last.time)
    (reason : MeasurementFailure) : (b.invalidate now reason).2 = b := by
  unfold SignalBuffer.invalidate
  rw [hlast]
  dsimp only
  rw [if_pos hlt]

/-- A failed component shows nothing Good, unless a Good sample of a later time was there. -/
theorem failedSignal_unavailable {c : PublishedComponent} {now : ℕ}
    (h : ∀ sample, c.signal.latest = some sample → sample.quality = .good → sample.time ≤ now) (sample : Sample)
    (hsample : (c.failedSignal now).latest = some sample) : sample.quality = .unavailable := by
  cases hlast : c.signal.latest with
  | some last =>
    rw [failedSignal_some hlast] at hsample
    by_cases hle : last.time ≤ now
    · rw [invalidate_latest hlast hle] at hsample
      obtain rfl := Option.some.inj hsample
      rfl
    · rw [invalidate_early hlast (not_le.1 hle), hlast] at hsample
      obtain rfl := Option.some.inj hsample
      cases hquality : last.quality with
      | unavailable => rfl
      | good => exact absurd (h last hlast hquality) hle
  | none =>
    unfold PublishedComponent.failedSignal at hsample
    rw [hlast] at hsample
    dsimp only at hsample
    cases hpush : c.signal.push (.unavailable c.signalId c.definition.manifest.unit now .componentFailure) with
    | error error =>
      rw [hpush, hlast] at hsample
      cases hsample
    | ok signal =>
      rw [hpush] at hsample
      obtain ⟨-, -, hlatest, -⟩ := SignalBuffer.push_ok hpush
      rw [hlatest] at hsample
      obtain rfl := Option.some.inj hsample
      rfl

/-- The sample of a step is Good with its value, or unavailable. -/
theorem steppedSample_ok {manifest : ComponentManifest F64} {now sourceTime : ℕ} {value : Option F64} {sample : Sample}
    (h : steppedSample manifest now sourceTime value = .ok sample) :
    (∃ x, value = some x ∧ sample = { signal := manifest.signal, unit := manifest.unit, time := now, freshnessTime := sourceTime,
                                      reading := .good (.float x) }) ∨
      value = none ∧ sample = .unavailable manifest.signal manifest.unit now .processingWarmup := by
  cases value with
  | none => exact .inr ⟨rfl, (Except.ok.inj h).symm⟩
  | some x =>
    unfold steppedSample Sample.derivedGood at h
    dsimp only at h
    split_ifs at h
    exact .inl ⟨x, rfl, (Except.ok.inj h).symm⟩

/-- Every component shows the end of the thread of its generation, and the rest of the owner sees the same signals. -/
structure Shown (s : ManagedRuntime σ ε) : Prop where
  shows : ∀ id c, s.managed.get id = some c → Shows (line CommittedStep.line (id, c.generation) s.committed) c
  mirrored : s.runtime.managed = s.managed.values.map PublishedComponent.native

theorem Shown.same (h : s.Shown) (hmanaged : s'.managed = s.managed) (hcommitted : s'.committed = s.committed)
    (hnatives : s'.runtime.managed = s.runtime.managed) : s'.Shown := by
  refine ⟨?_, by rw [hnatives, hmanaged, h.mirrored]⟩
  rw [hmanaged, hcommitted]
  exact h.shows

theorem Shown.stored (h : s.Shown) {id : ComponentId} {c : PublishedComponent} (hmanaged : s'.managed = s.managed.insert id c)
    (hcommitted : s'.committed = s.committed)
    (hnatives : s'.runtime.managed = s'.managed.values.map PublishedComponent.native)
    (hshows : Shows (line CommittedStep.line (id, c.generation) s.committed) c) : s'.Shown := by
  refine ⟨?_, hnatives⟩
  rw [hmanaged, hcommitted]
  intro other d hd
  obtain ⟨rfl, rfl⟩ | hold := OrderedMap.get_insert_cases _ hd
  · exact hshows
  · exact h.shows other d hold

theorem Shown.committed (h : s.Shown) {id : ComponentId} {c c' : PublishedComponent} {entry : CommittedStep}
    (hline : entry.line = (id, c.generation)) (hgeneration : c'.generation = c.generation)
    (hmanaged : s'.managed = s.managed.insert id c') (hcommitted : s'.committed = s.committed ++ [entry])
    (hnatives : s'.runtime.managed = s'.managed.values.map PublishedComponent.native)
    (hshows : ∀ earlier, Shows (earlier ++ [entry]) c') : s'.Shown := by
  refine ⟨?_, hnatives⟩
  rw [hmanaged, hcommitted]
  intro other d hd
  obtain ⟨rfl, rfl⟩ | ⟨hne, hold⟩ := OrderedMap.get_insert_split _ hd
  · rw [hgeneration, Lines.line_snoc hline]
    exact hshows _
  · rw [Lines.line_snoc_of_ne]
    · exact h.shows other d hold
    · rw [hline]
      exact fun heq => hne (Prod.mk.inj heq).1.symm

/-- A component that is not Ready, and shows nothing Good. -/
theorem shows_nothing {earlier : List CommittedStep} {c : PublishedComponent} (hstate : c.state ≠ .ready)
    (h : ∀ sample, c.signal.latest = some sample → sample.quality = .unavailable) : Shows earlier c :=
  ⟨fun hready => absurd hready hstate, fun _ => h⟩

/-- What a component shows as Good was shown by now. -/
theorem Shown.good_time (h : s.Shown) (ho : s.Ordered) {id : ComponentId} {c : PublishedComponent} (hget : s.managed.get id = some c)
    {sample : Sample} (hsample : c.signal.latest = some sample) (hgood : sample.quality = .good) :
    sample.time ≤ s.runtime.outputTime := by
  have hshows := h.shows id c hget
  by_cases hready : c.state = .ready
  · obtain ⟨last, value, hlast, -, hlatest⟩ := hshows.ready hready
    rw [hlatest] at hsample
    obtain rfl := Option.some.inj hsample
    exact ho.entries last (Lines.mem_line.1 (List.mem_of_getLast? hlast)).1
  · rw [hshows.other hready sample hsample] at hgood
    cases hgood

theorem Change.shown (h : s.Change s') (ho : s.Ordered) (hi : s.Shown) : s'.Shown := by
  cases h with
  | aside h => exact hi.same h.managed h.committed h.onward.managed
  | staging isOpen idle valid identity port onward => exact hi.same rfl rfl onward.managed
  | @created staged result descriptor signal pending fresh valid described window =>
    refine hi.stored rfl rfl rfl (shows_nothing (by simp [ManagedInstance.committing]) fun sample hsample => ?_)
    obtain ⟨-, rfl⟩ := SignalBuffer.new_ok window
    cases hsample
  | @replaced id old definition generation result descriptor now isOpen hget own keeps next valid described seen =>
    refine hi.stored rfl rfl rfl (shows_nothing (by simp [ManagedInstance.committing]) fun sample hsample => ?_)
    cases hlast : old.signal.latest with
    | none =>
      simp only [hlast, if_true] at hsample
      cases hsample
    | some last =>
      have hle : last.time ≤ now := by simpa [attemptedAfter, hlast] using seen
      simp only [hlast, reduceCtorEq, if_false] at hsample
      rw [invalidate_latest hlast hle] at hsample
      obtain rfl := Option.some.inj hsample
      rfl
  | @failing id c signal now hget seen unavailable =>
    refine hi.stored rfl rfl rfl (shows_nothing (by simp [ManagedInstance.fail]) fun sample hsample => ?_)
    have hsample : signal.latest = some sample := hsample
    rcases unavailable with rfl | ⟨hnone, rfl⟩
    · refine failedSignal_unavailable (fun shown hshown hgood => ?_) sample hsample
      rcases seen with rfl | hseen
      · exact hi.good_time ho hget hshown hgood
      · simpa [attemptedAfter, hshown] using hseen
    · rw [hnone] at hsample
      cases hsample
  | @invoked id c input now job executor hget =>
    have hshows := hi.shows id c hget
    exact hi.stored rfl rfl rfl ⟨hshows.ready, hshows.other⟩
  | @committed c completion value sourceTime next published sample now hget decided publishes clock =>
    obtain ⟨result, -, hawaits, htime, husable, rfl, rfl, hbound, hpublished⟩ := committed_ok decided publishes
    obtain ⟨hsample, hpush, -⟩ := publishStep_ok publishes
    obtain ⟨-, -, hlatest, -⟩ := SignalBuffer.push_ok hpush
    have hvalue := ManagedInstance.value_isSome_iff husable.valid
    have hstate : published.state = .ready ↔ result.status = .ready := by
      rw [hpublished]
      simp only [ManagedInstance.stepped]
      split_ifs with hready <;> simp [hready]
    have hmanifest : published.definition = c.definition := by rw [hpublished]; rfl
    refine hi.committed (c := c) (by rw [CommittedStep.line, ← hawaits.generation]) (by rw [hpublished]; rfl) rfl rfl rfl fun earlier => ?_
    obtain ⟨value, hsome, rfl⟩ | ⟨hnone, rfl⟩ := steppedSample_ok hsample
    · refine ⟨fun _ => ⟨_, value, List.getLast?_concat, hsome, ?_⟩, fun hbad => ?_⟩
      · rw [hlatest, goodSample, PublishedComponent.signalId, hmanifest]
      · exact absurd (hstate.2 (hvalue.1 (by rw [hsome]; rfl))) hbad
    · refine ⟨fun hready => ?_, fun _ shown hshown => ?_⟩
      · have hsome := hvalue.2 (hstate.1 hready)
        rw [hnone] at hsome
        cases hsome
      · rw [hlatest] at hshown
        obtain rfl := Option.some.inj hshown
        rfl
  | _ => exact hi.same rfl rfl rfl

/-! ### Runs -/

theorem empty_shown : (empty σ ε).Ordered ∧ (empty σ ε).Shown :=
  ⟨⟨.nil, .nil, fun _ hjob => (by cases hjob), fun _ hentry => (by cases hentry)⟩, fun _ _ hc => (by cases hc), rfl⟩

theorem run_shown (M : Platform σ ε) (ops : List (Op σ ε)) : (run M ops).Shown :=
  (run_keeps (I := fun s => s.Ordered ∧ s.Shown)
    (fun _ _ _ hi hchange => ⟨hchange.ordered hi.1, hchange.shown hi.1 hi.2⟩) empty_shown M ops).2

/-- What a component shows as Good is the value of the last committed step of its generation, with the time of that step and of its
source; the component is Ready then, and a Ready component shows nothing else. The rest of the owner sees the same signals. -/
theorem shown_good (M : Platform σ ε) (ops : List (Op σ ε)) :
    (∀ id c, (run M ops).managed.get id = some c →
        ((∃ sample, c.signal.latest = some sample ∧ sample.quality = .good) ↔ c.state = .ready) ∧
          ∀ sample, c.signal.latest = some sample → sample.quality = .good → ∃ last value,
            (line CommittedStep.line (id, c.generation) (run M ops).committed).getLast? = some last ∧ last.value = some value ∧
              sample = goodSample c last value) ∧
      (run M ops).runtime.managed = (run M ops).managed.values.map PublishedComponent.native := by
  have hshown := run_shown M ops
  refine ⟨fun id c hget => ?_, hshown.mirrored⟩
  have hshows := hshown.shows id c hget
  have hready : ∀ sample, c.signal.latest = some sample → sample.quality = .good → c.state = .ready := by
    intro sample hsample hgood
    by_contra hstate
    rw [hshows.other hstate sample hsample] at hgood
    cases hgood
  refine ⟨⟨?_, fun hstate => ?_⟩, fun sample hsample hgood => ?_⟩
  · rintro ⟨sample, hsample, hgood⟩
    exact hready sample hsample hgood
  · obtain ⟨last, value, -, -, hlatest⟩ := hshows.ready hstate
    exact ⟨_, hlatest, rfl⟩
  · obtain ⟨last, value, hlast, hvalue, hlatest⟩ := hshows.ready (hready sample hsample hgood)
    exact ⟨last, value, hlast, hvalue, Option.some.inj (hsample.symm.trans hlatest)⟩

end LabRuntime.ManagedRuntime
