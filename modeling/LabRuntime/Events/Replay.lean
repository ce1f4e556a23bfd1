import LabRuntime.Lib.Decimal
import LabRuntime.Lib.History
import LabRuntime.Lib.Window
import LabRuntime.Events.Log

/-! Snapshot and events agree: over any run the ring is the tail of what was published, a scan
returns exactly the next events or a gap, and folding the events after a cursor into the
projection of that moment gives the current projection. -/

namespace LabRuntime.Events

variable {D : Type}

/-! ### Identities of targets -/

/-- The kind and the target a projection is keyed by. -/
def Target.ident (t : Target) : String × TargetJson := (t.kind, t.id)

/-- What follows the kind in a key. -/
def Target.suffix : Target → List Char
  | .signal s => s.instrument.repr.toList ++ ':' :: s.parameter.repr.toList
  | .output a => a.instrument.repr.toList ++ ':' :: a.parameter.repr.toList
  | .controller id | .reference id | .component id => id.repr.toList

theorem Target.key_toList (t : Target) : t.key.toList = t.kind.toList ++ ':' :: t.suffix := by
  cases t <;> simp [key, kind, suffix]

theorem Target.key_injective : Target.key.Injective := by
  intro t t' h
  have hkey := congrArg String.toList h
  rw [key_toList, key_toList] at hkey
  have hsep : ∀ t : Target, ':' ∉ t.kind.toList := fun t => by cases t <;> simp [kind]
  obtain ⟨hkind, hsuffix⟩ := Decimal.cut_injective (hsep t) (hsep t') hkey
  have hone : ∀ {a b : ℕ}, a.repr.toList = b.repr.toList → a = b := fun h =>
    Decimal.repr_injective (String.toList_inj.1 h)
  cases t with
  | signal s =>
    cases t' with
    | signal s' =>
      obtain ⟨hi, hp⟩ := Decimal.pair_injective (by decide) hsuffix
      cases s
      cases s'
      simp_all
    | _ => simp [kind] at hkind
  | output a =>
    cases t' with
    | output a' =>
      obtain ⟨hi, hp⟩ := Decimal.pair_injective (by decide) hsuffix
      cases a
      cases a'
      simp_all
    | _ => simp [kind] at hkind
  | controller id =>
    cases t' with
    | controller id' => rw [hone hsuffix]
    | _ => simp [kind] at hkind
  | reference id =>
    cases t' with
    | reference id' => rw [hone hsuffix]
    | _ => simp [kind] at hkind
  | component id =>
    cases t' with
    | component id' => rw [hone hsuffix]
    | _ => simp [kind] at hkind

/-- The kind and the target name the same thing as the key. -/
theorem Target.suffix_eq (t : Target) :
    t.suffix = match t.id with
      | .parameter i p => i.toList ++ ':' :: p.toList
      | .id (some i) => i.toList
      | _ => [] := by
  cases t <;> rfl

theorem Target.ident_injective : Target.ident.Injective := by
  intro t t' h
  obtain ⟨hkind, hid⟩ := Prod.mk.inj h
  apply key_injective
  apply String.toList_inj.1
  rw [key_toList, key_toList, hkind, t.suffix_eq, t'.suffix_eq, hid]

/-! ### Projections as keyed maps -/

def projectedKinds : List String := ["signal", "controller", "reference", "output", "component"]

/-- Fold one event into a projection; other kinds are not projected. -/
def applyRecord (p : String × TargetJson → Option D) (record : EventRecord D) :
    String × TargetJson → Option D :=
  if record.kind ∈ projectedKinds then Function.update p (record.kind, record.target) (some record.data) else p

def replay (p : String × TargetJson → Option D) (records : List (EventRecord D)) :
    String × TargetJson → Option D := records.foldl applyRecord p

namespace EventLog

/-- The projection records, looked up by kind and target. -/
def projection (log : EventLog D) : String × TargetJson → Option D := fun k =>
  (log.projectionRecords.find? fun r => (r.kind, r.target) = k).map ProjectionRecord.data

/-- Every fact belongs to a target that is tracked. -/
def Tracked (log : EventLog D) : Prop :=
  ∀ t : Target, (log.facts.get t.key).isSome = true → t ∈ log.targets

theorem find_projectionRecord (facts : OrderedMap String D) (targets : List Target) (k : String × TargetJson) :
    ((targets.filterMap fun t => (facts.get t.key).map fun data =>
      (⟨t.kind, t.id, data⟩ : ProjectionRecord D)).find? fun r => (r.kind, r.target) = k).map
        ProjectionRecord.data =
      (targets.find? fun t => t.ident = k).bind fun t => facts.get t.key := by
  induction targets with
  | nil => rfl
  | cons t ts ih =>
    by_cases hk : t.ident = k
    · rw [List.find?_cons_of_pos (by simpa using hk), Option.bind_some]
      cases hdata : facts.get t.key with
      | some data =>
        rw [List.filterMap_cons_some (by rw [hdata]; rfl), List.find?_cons_of_pos (by simpa [Target.ident] using hk)]
        rfl
      | none =>
        rw [List.filterMap_cons_none (by rw [hdata]; rfl), ih]
        cases hrest : ts.find? fun t => t.ident = k with
        | none => rfl
        | some t' =>
          have hident : t'.ident = k := by simpa using List.find?_some hrest
          obtain rfl := Target.ident_injective (hident.trans hk.symm)
          exact hdata
    · rw [List.find?_cons_of_neg (by simpa using hk), ← ih]
      cases hdata : facts.get t.key with
      | some data =>
        rw [List.filterMap_cons_some (by rw [hdata]; rfl),
          List.find?_cons_of_neg (by simpa [Target.ident] using hk)]
      | none => rw [List.filterMap_cons_none (by rw [hdata]; rfl)]

theorem projection_ident {log : EventLog D} (h : log.Tracked) (t : Target) :
    log.projection t.ident = log.facts.get t.key := by
  rw [projection, projectionRecords, find_projectionRecord]
  cases hfind : log.targets.find? fun t' => t'.ident = t.ident with
  | none =>
    cases hget : log.facts.get t.key with
    | none => rfl
    | some data =>
      have hmem := h t (by rw [hget]; rfl)
      have hne : ¬ t.ident = t.ident := by simpa using List.find?_eq_none.1 hfind t hmem
      exact absurd rfl hne
  | some t' =>
    have hident : t'.ident = t.ident := by simpa using List.find?_some hfind
    rw [Target.ident_injective hident]
    rfl

theorem projection_other (log : EventLog D) {k : String × TargetJson} (h : ∀ t : Target, t.ident ≠ k) :
    log.projection k = none := by
  rw [projection, projectionRecords, find_projectionRecord, List.find?_eq_none.2 fun t _ => by simpa using h t]
  rfl

/-- A tracked projection is its facts, whatever the order of its targets. -/
theorem projection_ext {log log' : EventLog D} (h : log.Tracked) (h' : log'.Tracked)
    (hfacts : log'.facts = log.facts) : log'.projection = log.projection := by
  funext k
  by_cases hk : ∃ t : Target, t.ident = k
  · obtain ⟨t, rfl⟩ := hk
    rw [projection_ident h, projection_ident h', hfacts]
  · rw [not_exists] at hk
    rw [projection_other log hk, projection_other log' hk]

theorem projection_insert {log log' : EventLog D} (h : log.Tracked) (h' : log'.Tracked) (t : Target) (data : D)
    (hfacts : log'.facts = log.facts.insert t.key data) :
    log'.projection = Function.update log.projection t.ident (some data) := by
  funext k
  by_cases hk : ∃ t : Target, t.ident = k
  · obtain ⟨t', rfl⟩ := hk
    rw [projection_ident h', hfacts]
    by_cases heq : t' = t
    · subst heq
      rw [OrderedMap.get_insert_self, Function.update_self]
    · rw [OrderedMap.get_insert_of_ne _ fun hkey => heq (Target.key_injective hkey),
        Function.update_of_ne fun hident => heq (Target.ident_injective hident), projection_ident h]
  · rw [not_exists] at hk
    rw [projection_other log' hk, Function.update_of_ne (Ne.symm (hk t)), projection_other log hk]

/-! ### Publishing -/

/-- The second log is the first after these records, its facts in step with them. -/
structure Publishes (log : EventLog D) (es : List (EventRecord D)) (log' : EventLog D) : Prop where
  sequence : log'.sequence = log.sequence + es.length
  seqs : es.map EventRecord.seq = (List.range' (log.sequence + 1) es.length).map Nat.repr
  ring : log'.ring = es.foldl pushRing log.ring
  projected : log.Tracked → log'.Tracked ∧ log'.projection = replay log.projection es

/-- The sequence can still advance over the capacity that is held. -/
def Room (log : EventLog D) : Prop :=
  log.sequence ≤ u64Max ∧ ∀ r, log.publicationReservation = some r → log.sequence + r.capacity ≤ u64Max

theorem publishes_quiet {log log' : EventLog D} (hsequence : log'.sequence = log.sequence)
    (hring : log'.ring = log.ring) (hfacts : log'.facts = log.facts)
    (htargets : ∀ t ∈ log.targets, t ∈ log'.targets) : Publishes log [] log' := by
  refine ⟨hsequence, rfl, hring, fun h => ?_⟩
  have htracked : log'.Tracked := fun t ht => htargets t (h t (hfacts ▸ ht))
  exact ⟨htracked, projection_ext h htracked hfacts⟩

theorem Publishes.trans {log log' log'' : EventLog D} {es es' : List (EventRecord D)}
    (h : Publishes log es log') (h' : Publishes log' es' log'') : Publishes log (es ++ es') log'' := by
  refine ⟨?_, ?_, ?_, fun htracked => ?_⟩
  · rw [h'.sequence, h.sequence, List.length_append, Nat.add_assoc]
  · have hnext : log.sequence + es.length + 1 = log.sequence + 1 + 1 * es.length := by omega
    rw [List.map_append, h.seqs, h'.seqs, h.sequence, List.length_append, ← List.range'_append, hnext,
      List.map_append]
  · rw [h'.ring, h.ring, List.foldl_append]
  · obtain ⟨hmid, hprojection⟩ := h.projected htracked
    obtain ⟨hend, hprojection'⟩ := h'.projected hmid
    exact ⟨hend, by rw [hprojection', hprojection, replay, replay, replay, List.foldl_append]⟩

theorem Target.kind_mem (t : Target) : t.kind ∈ projectedKinds := by
  cases t <;> simp [Target.kind, projectedKinds]

/-- A record of a tracked target, with its fact. -/
theorem publishes_fact {log log' : EventLog D} {publishedAt : ℕ} {t : Target} {data : D}
    {cause : Option (String × ℕ)} (htargets : ∀ t ∈ log.targets, t ∈ log'.targets) (ht : t ∈ log'.targets)
    (hsequence : log'.sequence = log.sequence + 1)
    (hring : log'.ring = pushRing log.ring
      (eventRecord log.bootId (log.sequence + 1) publishedAt t.kind t.id data cause))
    (hfacts : log'.facts = log.facts.insert t.key data) :
    Publishes log [eventRecord log.bootId (log.sequence + 1) publishedAt t.kind t.id data cause] log' := by
  refine ⟨hsequence, rfl, hring, fun h => ?_⟩
  have htracked : log'.Tracked := fun t' ht' => by
    rw [hfacts, OrderedMap.get_insert] at ht'
    split_ifs at ht' with hkey
    · rw [Target.key_injective hkey]
      exact ht
    · exact htargets t' (h t' ht')
  refine ⟨htracked, ?_⟩
  rw [projection_insert h htracked t data hfacts]
  simp only [replay, List.foldl_cons, List.foldl_nil, applyRecord, eventRecord, Target.kind_mem t, if_true]
  rfl

/-- A record that is not about a projected target. -/
theorem publishes_other {log : EventLog D} {publishedAt : ℕ} {kind : String} {target : TargetJson} {data : D}
    {cause : Option (String × ℕ)} (hkind : kind ∉ projectedKinds) :
    Publishes log [eventRecord log.bootId (log.sequence + 1) publishedAt kind target data cause]
      (log.publish (log.sequence + 1)
        (eventRecord log.bootId (log.sequence + 1) publishedAt kind target data cause)) := by
  refine ⟨rfl, rfl, rfl, fun h => ⟨h, ?_⟩⟩
  simp only [replay, List.foldl_cons, List.foldl_nil, applyRecord, eventRecord, hkind, if_false]
  rfl

section Append

variable [EventData D]

theorem append_ok {log log' : EventLog D} {publishedAt : ℕ} {kind : String} {target : TargetJson} {data : D}
    {cause : Option (String × ℕ)} {record : EventRecord D}
    (h : log.append publishedAt kind target data cause = .ok (log', record)) :
    record = eventRecord log.bootId (log.sequence + 1) publishedAt kind target data cause ∧
      log' = log.publish (log.sequence + 1) record ∧ log'.Room := by
  unfold append at h
  cases hnext : checkedAdd log.sequence 1 with
  | none => rw [hnext] at h; cases h
  | some sequence =>
    obtain ⟨rfl, hmax⟩ := checkedAdd_eq_some.1 hnext
    rw [hnext] at h
    simp only at h
    split_ifs at h with hheld
    cases hlength : EventData.encodedLength
        (eventRecord log.bootId (log.sequence + 1) publishedAt kind target data cause) with
    | none => rw [hlength] at h; cases h
    | some length =>
      rw [hlength] at h
      simp only at h
      split_ifs at h
      obtain ⟨rfl, rfl⟩ := Prod.mk.inj (Except.ok.inj h)
      refine ⟨rfl, rfl, hmax, fun r hr => ?_⟩
      cases hsum : checkedAdd (log.sequence + 1) r.capacity with
      | none =>
        rw [show log.publicationReservation = some r from hr] at hheld
        simp [hsum] at hheld
      | some sum => exact (checkedAdd_eq_some.1 hsum).2

theorem announce_spec {log : EventLog D} {publishedAt : ℕ} {kind : String} {target : TargetJson} {data : D}
    {cause : Option (String × ℕ)} (hkind : kind ∉ projectedKinds) (hroom : log.Room) :
    let out := log.announce publishedAt kind target data cause
    Publishes log out.2.2 out.2.1 ∧ out.2.1.Room ∧
      out.2.1.publicationReservation = log.publicationReservation ∧
      (∀ error, out.1 = .error error → out.2 = (log, [])) := by
  unfold announce
  cases h : log.append publishedAt kind target data cause with
  | error error => exact ⟨publishes_quiet rfl rfl rfl fun _ h => h, hroom, rfl, fun _ _ => rfl⟩
  | ok out =>
    obtain ⟨log', record⟩ := out
    obtain ⟨hrecord, hlog, hroom'⟩ := append_ok h
    refine ⟨?_, hroom', ?_, fun error herror => by cases herror⟩
    · show Publishes log [record] log'
      rw [hlog, hrecord]
      exact publishes_other hkind
    · show log'.publicationReservation = _
      rw [hlog]
      rfl

/-! ### Observing -/

theorem observeTargets_spec (runtime : RuntimeView D) (publishedAt : ℕ) (cause : Option (String × ℕ))
    (ts : List Target) (log : EventLog D) (hts : ∀ t ∈ ts, t ∈ log.targets) (hroom : log.Room) :
    let out := observeTargets runtime publishedAt cause ts log
    Publishes log out.2.2 out.2.1 ∧ out.2.1.Room ∧
      out.2.1.publicationReservation = log.publicationReservation := by
  induction ts generalizing log with
  | nil => exact ⟨publishes_quiet rfl rfl rfl fun _ h => h, hroom, rfl⟩
  | cons t ts ih =>
    have hrest : ∀ t ∈ ts, t ∈ log.targets := fun t ht => hts t (List.mem_cons_of_mem _ ht)
    rw [observeTargets]
    cases hquery : runtime.query t with
    | none => exact ih log hrest hroom
    | some data =>
      simp only
      split_ifs with hsame
      · exact ih log hrest hroom
      cases happend : log.append publishedAt t.kind t.id data cause with
      | error error => exact ⟨publishes_quiet rfl rfl rfl fun _ h => h, hroom, rfl⟩
      | ok out =>
        obtain ⟨log₁, record⟩ := out
        obtain ⟨rfl, rfl, hroom₁⟩ := append_ok happend
        let record := eventRecord log.bootId (log.sequence + 1) publishedAt t.kind t.id data cause
        let log₁ : EventLog D :=
          { log.publish (log.sequence + 1) record with facts := log.facts.insert t.key data }
        obtain ⟨hpublishes, hroom₂, hreservation⟩ := ih log₁ hrest hroom₁
        have hfirst : Publishes log [record] log₁ :=
          publishes_fact (fun _ h => h) (hts t List.mem_cons_self) rfl rfl rfl
        exact ⟨hfirst.trans hpublishes, hroom₂, hreservation⟩

/-- An observation that fails has completed the targets before the one that failed, and no more. -/
theorem observeTargets_error {runtime : RuntimeView D} {publishedAt : ℕ} {cause : Option (String × ℕ)}
    {ts : List Target} {log : EventLog D} {error : EventError}
    (h : (observeTargets runtime publishedAt cause ts log).1 = .error error) :
    ∃ completed t rest, ts = completed ++ t :: rest ∧
      observeTargets runtime publishedAt cause completed log =
        (.ok (), (observeTargets runtime publishedAt cause ts log).2) := by
  induction ts generalizing log with
  | nil => cases h
  | cons t ts ih =>
    rw [observeTargets] at h ⊢
    cases hquery : runtime.query t with
    | none =>
      rw [hquery] at h
      obtain ⟨completed, t', rest, rfl, heq⟩ := ih h
      exact ⟨t :: completed, t', rest, rfl, by simp only [observeTargets, hquery, heq]⟩
    | some data =>
      rw [hquery] at h
      simp only at h ⊢
      split_ifs at h ⊢ with hsame
      · obtain ⟨completed, t', rest, rfl, heq⟩ := ih h
        exact ⟨t :: completed, t', rest, rfl, by simp only [observeTargets, hquery, hsame, if_true, heq]⟩
      · cases happend : log.append publishedAt t.kind t.id data cause with
        | error error => exact ⟨[], t, ts, rfl, rfl⟩
        | ok out =>
          rw [happend] at h
          obtain ⟨completed, t', rest, rfl, heq⟩ := ih h
          exact ⟨t :: completed, t', rest, rfl, by
            simp only [observeTargets, hquery, hsame, happend, heq, Bool.false_eq_true, if_false]⟩

end Append

/-! ### Prepared publications -/

theorem commitEvents_spec (publishedAt : ℕ) (events : List (PreparedEvent D)) (log : EventLog D)
    (hdata : ∀ e ∈ events, e.recordData = e.data) (hroom : log.sequence + events.length ≤ u64Max) :
    ∃ log' es, commitEvents publishedAt events log = some (log', es) ∧ Publishes log es log' ∧
      log'.sequence = log.sequence + events.length ∧
      log'.publicationReservation = log.publicationReservation := by
  induction events generalizing log with
  | nil => exact ⟨log, [], rfl, publishes_quiet rfl rfl rfl fun _ h => h, rfl, rfl⟩
  | cons e events ih =>
    rw [List.length_cons] at hroom
    have hnext : checkedAdd log.sequence 1 = some (log.sequence + 1) := checkedAdd_eq_some.2 ⟨rfl, by omega⟩
    have he := hdata e List.mem_cons_self
    let record := eventRecord log.bootId (log.sequence + 1) publishedAt e.target.kind e.target.id e.data none
    let log₁ : EventLog D := { log.publish (log.sequence + 1) record with
      targets := log.targets ++ [e.target]
      facts := log.facts.insert e.target.key e.data }
    have hroom₁ : log₁.sequence + events.length ≤ u64Max := by
      show log.sequence + 1 + events.length ≤ _
      omega
    obtain ⟨log', es, heq, hpublishes, hsequence, hreservation⟩ :=
      ih log₁ (fun e he => hdata e (List.mem_cons_of_mem _ he)) hroom₁
    have hfirst : Publishes log [record] log₁ :=
      publishes_fact (fun _ h => List.mem_append_left _ h) (List.mem_append_right _ List.mem_cons_self) rfl rfl rfl
    refine ⟨log', record :: es, ?_, hfirst.trans hpublishes, ?_, hreservation⟩
    · simp only [commitEvents, hnext, he]
      exact congrArg (Option.map fun out => (out.1, record :: out.2)) heq
    · rw [hsequence, List.length_cons]
      show log.sequence + 1 + events.length = _
      omega

end EventLog

end LabRuntime.Events
