import LabRuntime.Signal
import LabRuntime.Lib.Window

/-! One buffer over any sequence of pushes and invalidations. The attempts are a ghost record of what was
accepted, in which an invalidation at the time of the latest attempt takes that attempt's place. -/

namespace LabRuntime.SignalBuffer

inductive Call
  | push (sample : Sample)
  | invalidate (now : ℕ) (reason : MeasurementFailure)
  deriving Repr

def call (b : SignalBuffer) : Call → Except Error Unit × SignalBuffer
  | .push sample => match b.push sample with
    | .error error => (.error error, b)
    | .ok b => (.ok (), b)
  | .invalidate now reason => b.invalidate now reason

/-- The sample a call attempts to record. An invalidation has the unit of the latest attempt. -/
def Call.sample (id : SignalId) (latest : Option Sample) : Call → Option Sample
  | .push sample => some sample
  | .invalidate now reason => latest.map fun last => Sample.unavailable id last.unit now reason

def Call.replaces (latest : Option Sample) : Call → Bool
  | .push _ => false
  | .invalidate now _ => latest.any fun last => last.time = now

def Call.record (attempts : List Sample) (sample : Sample) (k : Call) : List Sample :=
  if k.replaces attempts.getLast? then attempts.dropLast ++ [sample] else attempts ++ [sample]

/-- A buffer with the attempts it was given and every accepted sample, those replaced among them. -/
structure Course where
  buffer : SignalBuffer
  attempts : List Sample
  accepted : List Sample

def Course.step (c : Course) (k : Call) : Course :=
  match c.buffer.call k with
  | (.error _, b) => { c with buffer := b }
  | (.ok _, b) => match k.sample b.id c.attempts.getLast? with
    | none => { c with buffer := b }
    | some sample => { buffer := b, attempts := k.record c.attempts sample, accepted := c.accepted ++ [sample] }

def course (b : SignalBuffer) (calls : List Call) : Course :=
  calls.foldl Course.step { buffer := b, attempts := [], accepted := [] }

theorem new_ok {id : SignalId} {capacity : ℕ} {b : SignalBuffer} (h : SignalBuffer.new id capacity = .ok b) :
    0 < capacity ∧ b = { id := id, capacity := capacity, samples := [] } := by
  unfold SignalBuffer.new at h
  split_ifs at h with hcap
  exact ⟨hcap.1, (Except.ok.inj h).symm⟩

/-- The window once there is room for one more sample. -/
def room (b : SignalBuffer) : List Sample := if b.samples.length = b.capacity then b.samples.tail else b.samples

theorem push_cases (b : SignalBuffer) (sample : Sample) :
    (∃ error, b.push sample = .error error) ∨
      b.Before sample.time ∧ b.push sample = .ok { b with samples := b.room ++ [sample] } := by
  unfold push
  by_cases hid : sample.signal = b.id
  · rw [if_neg (not_not.2 hid)]
    cases htime : b.checkTime sample.time with
    | error error => exact .inl ⟨error, rfl⟩
    | ok u => exact .inr ⟨checkTime_ok.1 htime, rfl⟩
  · exact .inl ⟨_, if_pos hid⟩

/-- A call is rejected and changes nothing, or appends a later sample, or puts an `Unavailable` one in the
place of the latest. -/
theorem call_cases (b : SignalBuffer) (k : Call) :
    (∃ error, b.call k = (.error error, b)) ∨
    (∃ sample, k.sample b.id b.latest = some sample ∧ k.replaces b.latest = false ∧ b.Before sample.time ∧
      b.call k = (.ok (), { b with samples := b.room ++ [sample] })) ∨
    ∃ last sample, b.latest = some last ∧ k.sample b.id b.latest = some sample ∧ k.replaces b.latest = true ∧
      sample.time = last.time ∧ sample.quality = .unavailable ∧
      b.call k = (.ok (), { b with samples := b.samples.dropLast ++ [sample] }) := by
  cases k with
  | push sample =>
    rcases push_cases b sample with ⟨error, heq⟩ | ⟨hbefore, heq⟩
    · exact .inl ⟨error, by simp only [call, heq]⟩
    · exact .inr (.inl ⟨sample, rfl, rfl, hbefore, by simp only [call, heq]⟩)
  | invalidate now reason =>
    simp only [call, invalidate, Call.sample, Call.replaces]
    cases b.latest with
    | none => exact .inl ⟨_, rfl⟩
    | some last =>
      by_cases hearlier : now < last.time
      · exact .inl ⟨_, if_pos hearlier⟩
      by_cases hequal : last.time = now
      · refine .inr (.inr ⟨last, _, rfl, rfl, by simp [hequal], hequal.symm, rfl, ?_⟩)
        simp only [if_neg hearlier, if_pos hequal]
      · rcases push_cases b (Sample.unavailable b.id last.unit now reason) with ⟨error, heq⟩ | ⟨hbefore, heq⟩
        · exact .inl ⟨error, by simp only [if_neg hearlier, if_neg hequal, heq]⟩
        · exact .inr (.inl ⟨_, rfl, by simp [hequal], hbefore, by simp only [if_neg hearlier, if_neg hequal, heq]⟩)

/-- What the attempts and the accepted samples say of the window. -/
structure Tail (id : SignalId) (capacity : ℕ) (c : Course) : Prop where
  sameId : c.buffer.id = id
  sameCapacity : c.buffer.capacity = capacity
  window : c.buffer.samples = Window.last capacity c.attempts
  increasing : c.attempts.Pairwise fun earlier later => earlier.time < later.time
  latest : ∀ sample ∈ c.accepted, ∃ last, c.attempts.getLast? = some last ∧ sample.time ≤ last.time
  fresh : c.accepted.Pairwise fun earlier later => later.quality = .good → earlier.time < later.time

variable {id : SignalId} {capacity : ℕ} {c : Course}

theorem Tail.buffer_latest (hpos : 0 < capacity) (h : Tail id capacity c) :
    c.buffer.latest = c.attempts.getLast? := by
  rw [SignalBuffer.latest, h.window, Window.getLast?_last _ _ hpos]

/-- The latest attempt is the latest of all. -/
theorem Tail.times_le (h : Tail id capacity c) {last : Sample} (hlast : c.attempts.getLast? = some last) :
    ∀ sample ∈ c.attempts, sample.time ≤ last.time := by
  obtain ⟨init, hinit⟩ := List.getLast?_eq_some_iff.1 hlast
  intro sample hmem
  have hincreasing := h.increasing
  rw [hinit] at hmem hincreasing
  rcases List.mem_append.1 hmem with hin | hin
  · exact ((List.pairwise_append.1 hincreasing).2.2 sample hin last (by simp)).le
  · rw [List.mem_singleton.1 hin]

/-- A later sample follows the attempts. -/
theorem Tail.append (hpos : 0 < capacity) (h : Tail id capacity c) {sample : Sample}
    (hbefore : c.buffer.Before sample.time) :
    Tail id capacity ⟨{ c.buffer with samples := c.buffer.room ++ [sample] }, c.attempts ++ [sample],
      c.accepted ++ [sample]⟩ := by
  have hlater : ∀ last, c.attempts.getLast? = some last → last.time < sample.time := by
    intro last hlast
    rw [← h.buffer_latest hpos] at hlast
    exact hbefore last hlast
  refine ⟨h.sameId, h.sameCapacity, ?_, ?_, ?_, ?_⟩
  · show c.buffer.room ++ [sample] = _
    rw [room, h.window, h.sameCapacity, Window.push _ _ hpos]
  · refine List.pairwise_append.2 ⟨h.increasing, List.pairwise_singleton _ _, ?_⟩
    intro earlier hearlier later hsample
    rw [List.mem_singleton.1 hsample]
    have hlast := List.getLast?_eq_some_getLast (List.ne_nil_of_mem hearlier)
    exact (h.times_le hlast earlier hearlier).trans_lt (hlater _ hlast)
  · intro earlier hearlier
    refine ⟨sample, List.getLast?_concat, ?_⟩
    rcases List.mem_append.1 hearlier with hin | hin
    · obtain ⟨last, hlast, hle⟩ := h.latest earlier hin
      exact hle.trans (hlater last hlast).le
    · rw [List.mem_singleton.1 hin]
  · refine List.pairwise_append.2 ⟨h.fresh, List.pairwise_singleton _ _, ?_⟩
    intro earlier hearlier later hsample _
    rw [List.mem_singleton.1 hsample]
    obtain ⟨last, hlast, hle⟩ := h.latest earlier hearlier
    exact hle.trans_lt (hlater last hlast)

/-- An `Unavailable` sample takes the place of the attempt of its time. -/
theorem Tail.replace (hpos : 0 < capacity) (h : Tail id capacity c) {last sample : Sample}
    (hlast : c.attempts.getLast? = some last) (htime : sample.time = last.time) (hbad : sample.quality = .unavailable) :
    Tail id capacity ⟨{ c.buffer with samples := c.buffer.samples.dropLast ++ [sample] },
      c.attempts.dropLast ++ [sample], c.accepted ++ [sample]⟩ := by
  obtain ⟨init, hinit⟩ := List.getLast?_eq_some_iff.1 hlast
  have hne : c.attempts ≠ [] := by
    rw [hinit]
    exact List.append_ne_nil_of_right_ne_nil _ (List.cons_ne_nil _ _)
  refine ⟨h.sameId, h.sameCapacity, ?_, ?_, ?_, ?_⟩
  · show c.buffer.samples.dropLast ++ [sample] = _
    rw [h.window, Window.replace _ _ hpos hne]
  · have hincreasing := h.increasing
    rw [hinit] at hincreasing ⊢
    rw [List.dropLast_concat]
    obtain ⟨hbefore, -, hacross⟩ := List.pairwise_append.1 hincreasing
    refine List.pairwise_append.2 ⟨hbefore, List.pairwise_singleton _ _, ?_⟩
    intro earlier hearlier later hsample
    rw [List.mem_singleton.1 hsample, htime]
    exact hacross earlier hearlier last (by simp)
  · intro earlier hearlier
    refine ⟨sample, List.getLast?_concat, ?_⟩
    rw [htime]
    rcases List.mem_append.1 hearlier with hin | hin
    · obtain ⟨last', hlast', hle⟩ := h.latest earlier hin
      rw [hlast] at hlast'
      obtain rfl := Option.some.inj hlast'
      exact hle
    · rw [List.mem_singleton.1 hin, htime]
  · refine List.pairwise_append.2 ⟨h.fresh, List.pairwise_singleton _ _, ?_⟩
    intro earlier hearlier later hsample hgood
    rw [List.mem_singleton.1 hsample, hbad] at hgood
    cases hgood

theorem Tail.step (hpos : 0 < capacity) (h : Tail id capacity c) (k : Call) : Tail id capacity (c.step k) := by
  have hlatest := h.buffer_latest hpos
  unfold Course.step
  rcases call_cases c.buffer k with ⟨error, hcall⟩ | ⟨sample, hsample, hnew, hbefore, hcall⟩ |
      ⟨last, sample, hlast, hsample, hsame, htime, hbad, hcall⟩
  · rw [hcall]
    exact h
  · rw [hcall]
    dsimp only
    rw [← hlatest, hsample]
    dsimp only
    rw [Call.record, ← hlatest, hnew]
    exact h.append hpos hbefore
  · rw [hcall]
    dsimp only
    rw [← hlatest, hsample]
    dsimp only
    rw [Call.record, ← hlatest, hsame, if_pos rfl]
    exact h.replace hpos (hlatest ▸ hlast) htime hbad

theorem Tail.foldl (hpos : 0 < capacity) (h : Tail id capacity c) (calls : List Call) :
    Tail id capacity (calls.foldl Course.step c) := by
  induction calls generalizing c with
  | nil => exact h
  | cons k calls ih => exact ih (h.step hpos k)

theorem course_tail {b : SignalBuffer} (hnew : SignalBuffer.new id capacity = .ok b) (calls : List Call) :
    Tail id capacity (b.course calls) := by
  obtain ⟨hpos, rfl⟩ := new_ok hnew
  have hstart : Tail id capacity ⟨⟨id, capacity, []⟩, [], []⟩ := ?_
  · exact hstart.foldl hpos calls
  refine ⟨rfl, rfl, ?_, List.Pairwise.nil, ?_, List.Pairwise.nil⟩
  · rw [Window.last, List.drop_nil]
  · intro sample hmem
    cases hmem

/-- What a step puts in the place of an attempt is `Unavailable`. -/
theorem step_replaces (hpos : 0 < capacity) (h : Tail id capacity c) (k : Call) {i : ℕ} {sample sample' : Sample}
    (hold : c.attempts[i]? = some sample) (hnow : (c.step k).attempts[i]? = some sample') :
    sample' = sample ∨ sample'.quality = .unavailable := by
  have hlatest := h.buffer_latest hpos
  have hi : i < c.attempts.length := (List.getElem?_eq_some_iff.1 hold).1
  unfold Course.step at hnow
  rcases call_cases c.buffer k with ⟨error, hcall⟩ | ⟨added, hadded, hnew, -, hcall⟩ |
      ⟨last, added, -, hadded, hsame, -, hbad, hcall⟩
  · rw [hcall] at hnow
    exact .inl (Option.some.inj (hnow.symm.trans hold))
  · rw [hcall] at hnow
    dsimp only at hnow
    rw [← hlatest, hadded] at hnow
    dsimp only at hnow
    rw [Call.record, ← hlatest, hnew, if_neg Bool.false_ne_true, List.getElem?_append_left hi] at hnow
    exact .inl (Option.some.inj (hnow.symm.trans hold))
  · rw [hcall] at hnow
    dsimp only at hnow
    rw [← hlatest, hadded] at hnow
    dsimp only at hnow
    rw [Call.record, ← hlatest, hsame, if_pos rfl] at hnow
    by_cases hlast : i < c.attempts.dropLast.length
    · rw [List.getElem?_append_left hlast, List.getElem?_dropLast] at hnow
      rw [if_pos (by simpa using hlast)] at hnow
      exact .inl (Option.some.inj (hnow.symm.trans hold))
    · rw [List.getElem?_append_right (not_lt.1 hlast)] at hnow
      have hmem := List.mem_of_getElem? hnow
      rw [List.mem_singleton.1 hmem]
      exact .inr hbad

/-- The window is the tail of the attempts, over any calls: in increasing time, within the capacity, its
`Unavailable` samples never followed by a `Good` one that is not later, nor a `Good` one replaced by another. -/
theorem window_is_tail {b : SignalBuffer} (hnew : SignalBuffer.new id capacity = .ok b) (calls : List Call) :
    let c := b.course calls
    (c.buffer.samples.Pairwise fun earlier later => earlier.time < later.time) ∧
    c.buffer.samples.length ≤ capacity ∧
    c.buffer.samples = c.attempts.drop (c.attempts.length - min capacity c.attempts.length) ∧
    (c.accepted.Pairwise fun earlier later =>
      earlier.quality = .unavailable → later.quality = .good → earlier.time < later.time) ∧
    (c.accepted.Pairwise fun earlier later =>
      earlier.quality = .good → later.quality = .good → earlier.time < later.time) ∧
    ∀ k : Call, (∀ (i : ℕ) (sample sample' : Sample), c.attempts[i]? = some sample →
        (c.step k).attempts[i]? = some sample' → sample' = sample ∨ sample'.quality = .unavailable) ∧
      ∀ error, (c.buffer.call k).1 = .error error → (c.buffer.call k).2 = c.buffer := by
  have hpos := (new_ok hnew).1
  have htail := course_tail hnew calls
  refine ⟨?_, ?_, ?_, ?_, ?_, fun k => ⟨?_, ?_⟩⟩
  · rw [htail.window]
    exact htail.increasing.sublist (List.drop_sublist _ _)
  · rw [htail.window, Window.length_last]
    exact min_le_left _ _
  · rw [htail.window, Window.last]
    congr 1
    omega
  · refine htail.fresh.imp ?_
    intro earlier later hfresh _
    exact hfresh
  · refine htail.fresh.imp ?_
    intro earlier later hfresh _
    exact hfresh
  · intro i sample sample' hold hnow
    exact step_replaces hpos htail k hold hnow
  · intro error herror
    rcases call_cases (b.course calls).buffer k with ⟨_, hcall⟩ | ⟨_, -, -, -, hcall⟩ | ⟨_, _, -, -, -, -, -, hcall⟩
    · rw [hcall]
    · rw [hcall] at herror
      cases herror
    · rw [hcall] at herror
      cases herror

/-- A full buffer of two whose tail is invalidated at its own time, then offered a `Good` sample of that time. -/
theorem window_is_tail_invalidated :
    let id : SignalId := ⟨15, 1⟩
    let good (t : ℕ) := Sample.good id .celsius t (.boolean true)
    let calls := [Call.push (good 1), .push (good 2), .push (good 3), .invalidate 3 .componentFailure, .push (good 3)]
    ∃ b, SignalBuffer.new id 2 = .ok b ∧
      (b.course calls).buffer.samples = [good 2, Sample.unavailable id .celsius 3 .componentFailure] ∧
      (b.course calls).buffer.samples.length ≤ 2 := by
  refine ⟨_, rfl, ?_, (window_is_tail rfl _).2.1⟩
  rfl

end LabRuntime.SignalBuffer
