import LabRuntime.Managed.Machine
import LabRuntime.Runtime.ShellCalls
import Mathlib.Logic.Relation

/-! What a command can do to the managed components, as changes with what each has checked. Every command is a path of
changes, so that whatever each change keeps holds over every run. -/

namespace LabRuntime.ManagedRuntime

variable {σ ε : Type} {s s' s'' : ManagedRuntime σ ε}

/-! ### Changes -/

/-- The managed components are as they were, and the rest of the owner went on. -/
structure Aside (s s' : ManagedRuntime σ ε) : Prop where
  managed : s'.managed = s.managed
  staged : s'.staged = s.staged
  prepared : s'.prepared = s.prepared
  componentRuntime : s'.componentRuntime = s.componentRuntime
  managedQuiesced : s'.managedQuiesced = s.managedQuiesced
  submitted : s'.submitted = s.submitted
  committed : s'.committed = s.committed
  executor : s'.executor.isSome = s.executor.isSome
  onward : s.runtime.Onward s'.runtime

/-- One change of the managed part, with what it has checked. -/
inductive Change (s : ManagedRuntime σ ε) : ManagedRuntime σ ε → Prop
  | aside {t} (h : s.Aside t) : Change s t
  | installed {executor identity} (portless : s.executor = none) (idle : s.staged = none) (empty : s.managed.entries = []) :
    Change s { s with executor := some executor, componentRuntime := identity }
  | staging {definition replaces generation revision now prepareOnly executor runtime} (isOpen : s.managedQuiesced = false)
    (idle : s.stagingBusy definition.manifest.id prepareOnly = false)
    (valid : s.validateComponentDefinition definition replaces = .ok ()) (identity : s.nextIdentity replaces = .ok (generation, revision))
    (port : s.executor.isSome = true) (onward : s.runtime.Onward runtime) (clock : runtime.outputTime = now)
    (replacing : prepareOnly = true → replaces ≠ none) :
    Change s { s with
      runtime := runtime
      executor := some executor
      submitted := s.submitted ++
        [ManagedInstance.stagingJob definition ⟨s.componentRuntime, definition.manifest.id, generation, 0, revision⟩ now]
      staged := some ⟨definition, replaces, ⟨s.componentRuntime, definition.manifest.id, generation, 0, revision⟩, prepareOnly⟩ }
  | dropped : Change s { s with staged := none }
  | retained {staged result} (pending : s.staged = some staged) (only : staged.prepareOnly = true)
    (valid : ManagedInstance.validateManagedResult result staged.definition.manifest .init = .ok ()) :
    Change s { s with staged := none, prepared := s.prepared.insert staged.definition.manifest.id ⟨staged, result⟩ }
  | forgotten {prepared} (fewer : ∀ id p, prepared.get id = some p → s.prepared.get id = some p) :
    Change s { s with prepared := prepared }
  | created {staged result descriptor signal} (pending : s.staged = some staged) (fresh : staged.replaces = none)
    (valid : ManagedInstance.validateManagedResult result staged.definition.manifest .init = .ok ())
    (described : managedDescriptor staged.definition.manifest = .ok descriptor)
    (window : SignalBuffer.new staged.definition.manifest.signal staged.definition.manifest.historyCapacity = .ok signal) :
    Change s (withManaged { s with staged := none } (s.managed.insert staged.definition.manifest.id
      { toManagedInstance := .committing staged.definition staged.correlation.generation result
        descriptor := descriptor
        signal := signal }))
  | replaced {id old definition generation result descriptor now} (isOpen : s.managedQuiesced = false)
    (hget : s.managed.get id = some old)
    (own : definition.manifest.id = id) (keeps : retains old.definition.manifest definition.manifest = true)
    (next : checkedAdd old.generation 1 = some generation)
    (valid : ManagedInstance.validateManagedResult result definition.manifest .init = .ok ())
    (described : managedDescriptor definition.manifest = .ok descriptor) (seen : attemptedAfter old now = false) :
    Change s (s.withManaged (s.managed.insert id
      { toManagedInstance := .committing definition generation result
        descriptor := descriptor
        signal := if old.signal.latest = none then old.signal else (old.signal.invalidate now .componentFailure).2 }))
  | failing {id c signal now} (hget : s.managed.get id = some c)
    (seen : s.runtime.outputTime = now ∨ attemptedAfter c now = false)
    (unavailable : signal = c.failedSignal now ∨ c.signal.latest = none ∧ signal = c.signal) :
    Change s (s.withManaged (s.managed.insert id { c with toManagedInstance := c.fail, signal := signal }))
  | invoked {id c input now job executor} (hget : s.managed.get id = some c) (live : c.state ≠ .failed)
    (idle : c.pending = none) (isOpen : s.managedQuiesced = false)
    (captured : s.captureComponentInput c.definition.manifest now = .ok input)
    (built : c.nextJob s.componentRuntime now input = .ok job) (port : s.executor.isSome = true)
    (clock : s.runtime.outputTime = now) :
    Change s (withManaged { s with executor := some executor, submitted := s.submitted ++ [job] }
      (s.managed.insert id { c with toManagedInstance := c.awaiting job }))
  | committed {c completion value sourceTime next published sample now}
    (hget : s.managed.get completion.correlation.component = some c)
    (decided : c.decideStep s.componentRuntime completion now
      (fun input => (s.runtime.signal input.signal).bind SignalBuffer.latest) = .committed value sourceTime next)
    (publishes : publishStep c next now sourceTime value = .ok (published, sample)) (clock : s.runtime.outputTime = now) :
    Change s { s.withManaged (s.managed.insert completion.correlation.component published) with
      committed := s.committed ++
        [⟨completion.correlation, c.definition, c.committed, c.pendingInput, sourceTime, now, value, published.committed⟩] }
  | quiesced : Change s { s with managedQuiesced := true, staged := none, prepared := .empty }

/-- Whatever a command did, as changes one after another. -/
abbrev Path (s s' : ManagedRuntime σ ε) : Prop := Relation.ReflTransGen Change s s'

theorem Aside.refl (s : ManagedRuntime σ ε) : s.Aside s := ⟨rfl, rfl, rfl, rfl, rfl, rfl, rfl, rfl, .refl _⟩

theorem Aside.trans (h : s.Aside s') (h' : s'.Aside s'') : s.Aside s'' where
  managed := h'.managed.trans h.managed
  staged := h'.staged.trans h.staged
  prepared := h'.prepared.trans h.prepared
  componentRuntime := h'.componentRuntime.trans h.componentRuntime
  managedQuiesced := h'.managedQuiesced.trans h.managedQuiesced
  submitted := h'.submitted.trans h.submitted
  committed := h'.committed.trans h.committed
  executor := h'.executor.trans h.executor
  onward := h.onward.trans h'.onward

instance : Std.Refl (Aside (σ := σ) (ε := ε)) := ⟨.refl⟩

instance : IsTrans (ManagedRuntime σ ε) Aside := ⟨fun _ _ _ => .trans⟩

theorem Aside.path (h : s.Aside s') : s.Path s' := .single (.aside h)

/-! ### What is staged -/

/-- A staged definition is of a new component, or keeps the manifest of the one that it replaces. -/
structure Stageable (managed : OrderedMap ComponentId PublishedComponent) (staged : StagedComponent) : Prop where
  fresh : staged.replaces = none → managed.get staged.definition.manifest.id = none
  kept : ∀ id, staged.replaces = some id → staged.definition.manifest.id = id ∧
    ∃ old, managed.get id = some old ∧ retains old.definition.manifest staged.definition.manifest = true

/-- Components are kept under their identities, and what waits fits what is there. -/
structure Sound (s : ManagedRuntime σ ε) : Prop where
  keyed : ∀ id c, s.managed.get id = some c → c.definition.manifest.id = id
  staged : ∀ staged, s.staged = some staged →
    Stageable s.managed staged ∧ (staged.prepareOnly = true → staged.replaces ≠ none)
  prepared : ∀ id p, s.prepared.get id = some p → Stageable s.managed p.staged ∧ p.staged.replaces = some id
  quiesced : s.managedQuiesced = true → s.staged = none ∧ s.prepared = .empty

/-- While something waits, the components are not quiesced. -/
theorem Sound.open_of_staged (hs : s.Sound) {staged : StagedComponent} (h : s.staged = some staged) : s.managedQuiesced = false := by
  by_contra hquiesced
  rw [(hs.quiesced (by simpa using hquiesced)).1] at h
  cases h

theorem Sound.open_of_prepared (hs : s.Sound) {id : ComponentId} {p : PreparedComponent} (h : s.prepared.get id = some p) :
    s.managedQuiesced = false := by
  by_contra hquiesced
  rw [(hs.quiesced (by simpa using hquiesced)).2] at h
  cases h

theorem retains_iff {previous manifest : ComponentManifest F64} : retains previous manifest = true ↔
    previous.instrument = manifest.instrument ∧ previous.parameter = manifest.parameter ∧ previous.kind = manifest.kind ∧
      previous.unit.id = manifest.unit.id ∧ (previous.min == manifest.min) = true ∧ (previous.max == manifest.max) = true ∧
      previous.name = manifest.name ∧ previous.warmupSamples = manifest.warmupSamples ∧
      previous.maxInputAge = manifest.maxInputAge ∧ previous.historyCapacity = manifest.historyCapacity := by
  simp only [retains, Bool.and_eq_true, decide_eq_true_eq, EngineeringUnit.beq_iff, beq_iff_eq, and_assoc]

theorem beq_left_trans {x y z : F64} (hy : (x == y) = true) (hz : (x == z) = true) : (y == z) = true := by
  have hkeys : ∀ a b : F64, (a == b) = true ↔ a.isNan = false ∧ b.isNan = false ∧ a.key = b.key := fun a b => by
    show (!a.isNan && !b.isNan && a.key == b.key) = true ↔ _
    simp [and_assoc]
  rw [hkeys] at *
  exact ⟨hy.2.1, hz.2.1, hy.2.2.symm.trans hz.2.2⟩

/-- Two manifests that keep the same one keep each other. -/
theorem retains_trans {previous next manifest : ComponentManifest F64} (h : retains previous next = true)
    (h' : retains previous manifest = true) : retains next manifest = true := by
  rw [retains_iff] at *
  obtain ⟨h1, h2, h3, h4, h5, h6, h7, h8, h9, h10⟩ := h
  obtain ⟨h1', h2', h3', h4', h5', h6', h7', h8', h9', h10'⟩ := h'
  exact ⟨h1 ▸ h1', h2 ▸ h2', h3 ▸ h3', h4 ▸ h4', beq_left_trans h5 h5', beq_left_trans h6 h6', h7 ▸ h7', h8 ▸ h8', h9 ▸ h9',
    h10 ▸ h10'⟩

/-- Every component is still there, and its manifest kept. -/
def Follows (m m' : OrderedMap ComponentId PublishedComponent) : Prop :=
  ∀ id c, m.get id = some c → ∃ c', m'.get id = some c' ∧
    (c'.definition = c.definition ∨ retains c.definition.manifest c'.definition.manifest = true)

variable {m m' : OrderedMap ComponentId PublishedComponent}

theorem Follows.refl (m : OrderedMap ComponentId PublishedComponent) : Follows m m := fun _ c hc => ⟨c, hc, .inl rfl⟩

theorem follows_replaced {id : ComponentId} {c c' : PublishedComponent} (hget : m.get id = some c)
    (h : c'.definition = c.definition ∨ retains c.definition.manifest c'.definition.manifest = true) :
    Follows m (m.insert id c') := by
  intro id' d hd
  rw [OrderedMap.get_insert]
  split_ifs with heq
  · subst heq
    rw [hget] at hd
    obtain rfl := Option.some.inj hd
    exact ⟨c', rfl, h⟩
  · exact ⟨d, hd, .inl rfl⟩

theorem follows_created {id : ComponentId} (hget : m.get id = none) (c' : PublishedComponent) : Follows m (m.insert id c') := by
  intro id' d hd
  have hne : id' ≠ id := by
    rintro rfl
    rw [hget] at hd
    cases hd
  exact ⟨d, by rw [OrderedMap.get_insert_of_ne _ hne, hd], .inl rfl⟩

theorem Stageable.follows {staged : StagedComponent} (h : Stageable m staged) (hf : Follows m m')
    (hfresh : staged.replaces = none → m'.get staged.definition.manifest.id = none) : Stageable m' staged := by
  refine ⟨hfresh, fun id hid => ?_⟩
  obtain ⟨hown, old, hold, hretains⟩ := h.kept id hid
  obtain ⟨c', hc', hsame | hnext⟩ := hf id old hold
  · exact ⟨hown, c', hc', hsame ▸ hretains⟩
  · exact ⟨hown, c', hc', retains_trans hnext hretains⟩

theorem Stageable.replaced {staged : StagedComponent} (h : Stageable m staged) {id : ComponentId} {c c' : PublishedComponent}
    (hget : m.get id = some c)
    (hdefinition : c'.definition = c.definition ∨ retains c.definition.manifest c'.definition.manifest = true) :
    Stageable (m.insert id c') staged := by
  refine h.follows (follows_replaced hget hdefinition) fun hnone => ?_
  have hfresh := h.fresh hnone
  rw [OrderedMap.get_insert, if_neg, hfresh]
  rintro heq
  rw [heq, hget] at hfresh
  cases hfresh

/-- A component that is stored under its own identity. -/
theorem keyed_insert (h : ∀ id c, m.get id = some c → c.definition.manifest.id = id) {id : ComponentId} {c : PublishedComponent}
    (hid : c.definition.manifest.id = id) (id' : ComponentId) (c' : PublishedComponent) (hget : (m.insert id c).get id' = some c') :
    c'.definition.manifest.id = id' := by
  obtain ⟨rfl, rfl⟩ | hold := OrderedMap.get_insert_cases _ hget
  · exact hid
  · exact h id' c' hold

/-- A definition that was validated may be staged. -/
theorem validated {definition : ComponentDefinition F64} {replaces : Option ComponentId}
    (h : s.validateComponentDefinition definition replaces = .ok ()) (correlation : Correlation) (prepareOnly : Bool) :
    Stageable s.managed ⟨definition, replaces, correlation, prepareOnly⟩ := by
  unfold validateComponentDefinition at h
  obtain ⟨_, -, h⟩ := Checks.bind_ok.1 h
  obtain ⟨_, hidentity, -⟩ := Checks.bind_ok.1 h
  unfold checkIdentity at hidentity
  refine ⟨fun hfresh => ?_, fun id hid => ?_⟩
  · have hfresh : replaces = none := hfresh
    subst hfresh
    have hfree := Checks.reject_ok.1 hidentity
    simp only [not_or] at hfree
    simpa [OrderedMap.contains] using hfree.1
  · have hid : replaces = some id := hid
    subst hid
    dsimp only at hidentity
    cases hget : s.managed.get id with
    | none => simp [hget] at hidentity
    | some old =>
      rw [hget] at hidentity
      obtain ⟨_, hkept, -⟩ := Checks.bind_ok.1 hidentity
      have hkept := Checks.reject_ok.1 hkept
      simp only [not_or, not_not, Bool.not_eq_false] at hkept
      exact ⟨hkept.1.symm, old, rfl, hkept.2⟩

/-- A step that is published keeps the definition. -/
theorem publishStep_ok {c published : PublishedComponent} {next : ManagedInstance F64} {now sourceTime : ℕ} {value : Option F64}
    {sample : Sample} (h : publishStep c next now sourceTime value = .ok (published, sample)) :
    steppedSample c.definition.manifest now sourceTime value = .ok sample ∧ c.signal.push sample = .ok published.signal ∧
      published = { c with toManagedInstance := next, signal := published.signal } := by
  unfold publishStep at h
  obtain ⟨first, hsample, h⟩ := Checks.bind_ok.1 h
  obtain ⟨signal, hsignal, h⟩ := Checks.bind_ok.1 h
  obtain ⟨rfl, rfl⟩ := Prod.mk.inj (Checks.pure_ok.1 h)
  exact ⟨hsample, hsignal, rfl⟩

/-- The component that a step committed. -/
theorem committed_ok {c published : PublishedComponent} {next : ManagedInstance F64} {runtime now sourceTime : ℕ}
    {completion : ComponentCompletion F64} {latest : CapturedInput F64 → Option Sample} {value : Option F64} {sample : Sample}
    (hdecided : c.decideStep runtime completion now latest = .committed value sourceTime next)
    (h : publishStep c next now sourceTime value = .ok (published, sample)) :
    ∃ result, completion.outcome = .ok result ∧ c.Awaits runtime completion.correlation ∧
      c.OnTime completion.timely now latest ∧ c.Usable result ∧ value = result.value ∧ sourceTime = c.sourceTime ∧
      c.revision + 1 ≤ u64Max ∧
      published = { c with toManagedInstance := c.stepped result (c.revision + 1) now, signal := published.signal } := by
  obtain ⟨hawaits, htime, result, revision, houtcome, hrevision, husable, hvalue, hsource, hnext⟩ :=
    ManagedInstance.decideStep_committed hdecided
  obtain ⟨hsum, hbound⟩ := checkedAdd_eq_some.1 hrevision
  obtain ⟨-, -, hpublished⟩ := publishStep_ok h
  subst hsum hnext
  exact ⟨result, houtcome, hawaits, htime, husable, hvalue, hsource, hbound, hpublished⟩

theorem Change.sound (h : s.Change s') (hs : s.Sound) : s'.Sound := by
  have hsame : ∀ t : ManagedRuntime σ ε, t.managed = s.managed → (∀ staged, t.staged = some staged → s.staged = some staged) →
      (∀ id p, t.prepared.get id = some p → s.prepared.get id = some p) →
      (t.managedQuiesced = true → t.staged = none ∧ t.prepared = .empty) → t.Sound := by
    intro t hmanaged hstaged hprepared hquiesced
    refine ⟨fun id c hc => hs.keyed id c (hmanaged ▸ hc), fun staged hst => ?_, fun id p hp => ?_, hquiesced⟩
    · rw [hmanaged]
      exact hs.staged staged (hstaged staged hst)
    · rw [hmanaged]
      exact hs.prepared id p (hprepared id p hp)
  have hstored : ∀ (t : ManagedRuntime σ ε) (id : ComponentId) (c c' : PublishedComponent), s.managed.get id = some c →
      t.managed = s.managed.insert id c' → (c'.definition = c.definition ∨ c'.definition.manifest.id = id ∧
        retains c.definition.manifest c'.definition.manifest = true) → t.staged = s.staged → t.prepared = s.prepared →
      t.managedQuiesced = s.managedQuiesced → t.Sound := by
    intro t id c c' hget hmanaged hdefinition hstaged hprepared hquiesced
    have hkept := hdefinition.imp_right And.right
    have hid : c'.definition.manifest.id = id := by
      rcases hdefinition with hdefinition | ⟨hid, -⟩
      · rw [hdefinition]
        exact hs.keyed id c hget
      · exact hid
    refine ⟨?_, fun staged hst => ?_, fun id' p hp => ?_, ?_⟩
    · rw [hmanaged]
      exact keyed_insert hs.keyed hid
    · rw [hstaged] at hst
      rw [hmanaged]
      exact ⟨(hs.staged staged hst).1.replaced hget hkept, (hs.staged staged hst).2⟩
    · rw [hprepared] at hp
      rw [hmanaged]
      exact ⟨(hs.prepared id' p hp).1.replaced hget hkept, (hs.prepared id' p hp).2⟩
    · rw [hstaged, hprepared, hquiesced]
      exact hs.quiesced
  cases h with
  | aside h =>
    refine hsame s' h.managed (fun staged hst => ?_) (fun id p hp => ?_) ?_
    · rwa [← h.staged]
    · rwa [← h.prepared]
    · rw [h.managedQuiesced, h.staged, h.prepared]
      exact hs.quiesced
  | installed => exact hsame _ rfl (fun _ hst => hst) (fun _ _ hp => hp) hs.quiesced
  | staging isOpen idle valid identity port onward clock replacing =>
    refine ⟨hs.keyed, fun staged hst => ?_, hs.prepared, fun hquiesced => ?_⟩
    · obtain rfl := Option.some.inj hst
      exact ⟨validated valid _ _, replacing⟩
    · rw [isOpen] at hquiesced
      cases hquiesced
  | dropped => exact hsame _ rfl (fun _ hst => by cases hst) (fun _ _ hp => hp) fun hquiesced => ⟨rfl, (hs.quiesced hquiesced).2⟩
  | retained pending only valid =>
    refine ⟨hs.keyed, fun _ hst => (by cases hst), fun id p hp => ?_, fun hquiesced => ?_⟩
    · obtain ⟨hstageable, hne⟩ := hs.staged _ pending
      obtain ⟨rfl, rfl⟩ | hold := OrderedMap.get_insert_cases _ hp
      · obtain ⟨replaced, hreplaces⟩ := Option.ne_none_iff_exists'.1 (hne only)
        exact ⟨hstageable, by rw [hreplaces, (hstageable.kept replaced hreplaces).1]⟩
      · exact hs.prepared id p hold
    · rw [hs.open_of_staged pending] at hquiesced
      cases hquiesced
  | @forgotten prepared fewer =>
    refine hsame _ rfl (fun _ hst => hst) fewer fun hquiesced => ⟨(hs.quiesced hquiesced).1, OrderedMap.ext_get fun id => ?_⟩
    cases hp : prepared.get id with
    | none => rfl
    | some p =>
      have hold := fewer id p hp
      rw [(hs.quiesced hquiesced).2] at hold
      cases hold
  | created pending fresh valid described window =>
    refine ⟨keyed_insert hs.keyed rfl, fun _ hst => (by cases hst), fun id p hp => ?_, fun hquiesced => ⟨rfl, (hs.quiesced hquiesced).2⟩⟩
    obtain ⟨hstageable, hreplaces⟩ := hs.prepared id p hp
    refine ⟨hstageable.follows (follows_created ((hs.staged _ pending).1.fresh fresh) _) fun hnone => ?_, hreplaces⟩
    rw [hreplaces] at hnone
    cases hnone
  | replaced isOpen hget own keeps next valid described seen => exact hstored _ _ _ _ hget rfl (.inr ⟨own, keeps⟩) rfl rfl rfl
  | failing hget seen unavailable => exact hstored _ _ _ _ hget rfl (.inl rfl) rfl rfl rfl
  | invoked hget live idle isOpen captured built port clock => exact hstored _ _ _ _ hget rfl (.inl rfl) rfl rfl rfl
  | committed hget decided publishes clock =>
    refine hstored _ _ _ _ hget rfl (.inl ?_) rfl rfl rfl
    obtain ⟨result, -, -, -, -, -, -, -, hpublished⟩ := committed_ok decided publishes
    rw [hpublished]
    rfl
  | quiesced => exact hsame _ rfl (fun _ hst => by cases hst) (fun _ _ hp => by cases hp) fun _ => ⟨rfl, rfl⟩

theorem path_sound (h : s.Path s') (hs : s.Sound) : s'.Sound := by
  induction h with
  | refl => exact hs
  | tail _ hchange ih => exact hchange.sound ih

/-- What every change keeps, a path keeps. -/
theorem path_keeps {I : ManagedRuntime σ ε → Prop} (hchange : ∀ s t, s.Sound → I s → s.Change t → I t) (h : s.Path s')
    (hs : s.Sound) (hI : I s) : I s' := by
  induction h with
  | refl => exact hI
  | tail hpath hnext ih => exact hchange _ _ (path_sound hpath hs) ih hnext

theorem empty_sound : (empty σ ε).Sound :=
  ⟨fun _ _ hc => (by cases hc), fun _ hst => (by cases hst), fun _ _ hp => (by cases hp), fun _ => ⟨rfl, rfl⟩⟩

/-- Whatever the command did, it is a path of changes. -/
def Evolves (s s' : ManagedRuntime σ ε) : Prop := s.Sound → s.Path s'

instance : Std.Refl (Evolves (σ := σ) (ε := ε)) := ⟨fun _ _ => .refl⟩

instance : IsTrans (ManagedRuntime σ ε) Evolves := ⟨fun _ _ _ h h' hs => (h hs).trans (h' (path_sound (h hs) hs))⟩

theorem Aside.evolves (h : s.Aside s') : s.Evolves s' := fun _ => h.path

theorem Change.evolves (h : s.Change s') : s.Evolves s' := fun _ => .single h

end LabRuntime.ManagedRuntime
