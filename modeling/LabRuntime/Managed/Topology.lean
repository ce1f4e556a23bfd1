import LabRuntime.Managed.Signals

/-! Who reads whom: a transform reads an instrument that is there and that no transform publishes, so that a failure or a
replacement reaches everything behind it in one pass over the direct readers. -/

namespace LabRuntime

namespace PublishedComponent

def instrument (c : PublishedComponent) : InstrumentId := c.definition.manifest.instrument

end PublishedComponent

namespace ManagedRuntime

variable {σ ε : Type} {s s' : ManagedRuntime σ ε}

/-- What a transform of a signal finds: the instrument is shown, it is another one, and a component of it is a source. -/
structure Readable (s : ManagedRuntime σ ε) (manifest : ComponentManifest F64) (input : SignalId) : Prop where
  shown : s.runtime.shell.Shows input.instrument
  other : input.instrument ≠ manifest.instrument
  source : ∀ id c, s.managed.get id = some c → c.instrument = input.instrument → c.definition.manifest.kind = .source

/-- Nothing has to do with an instrument yet. -/
structure Unread (s : ManagedRuntime σ ε) (instrument : InstrumentId) : Prop where
  unpublished : ∀ id c, s.managed.get id = some c → c.instrument ≠ instrument
  unread : ∀ id c input, s.managed.get id = some c → c.definition.manifest.kind = .transform input → input.instrument ≠ instrument

/-- Every component has an instrument of its own, and every transform finds its input. -/
structure Flat (s : ManagedRuntime σ ε) : Prop where
  described : ∀ id c, s.managed.get id = some c → c.descriptor.id = c.instrument
  apart : ∀ id c other d, s.managed.get id = some c → s.managed.get other = some d → c.instrument = d.instrument → id = other
  reads : ∀ id c input, s.managed.get id = some c → c.definition.manifest.kind = .transform input →
    s.Readable c.definition.manifest input
  staged : ∀ staged, s.staged = some staged → staged.replaces = none → s.Unread staged.definition.manifest.instrument ∧
    ∀ input, staged.definition.manifest.kind = .transform input → s.Readable staged.definition.manifest input

/-! ### Checks of a definition -/

theorem managedDescriptor_id {manifest : ComponentManifest F64} {descriptor : InstrumentDescriptor}
    (h : managedDescriptor manifest = .ok descriptor) : descriptor.id = manifest.instrument := by
  unfold managedDescriptor at h
  obtain ⟨_, -, h⟩ := Checks.bind_ok.1 h
  obtain rfl := Checks.pure_ok.1 h
  rfl

theorem checkInput_ok {manifest : ComponentManifest F64} {input : SignalId} {u : Unit} (h : s.checkInput manifest input = .ok u) :
    s.Readable manifest input := by
  unfold checkInput at h
  obtain ⟨hother, h⟩ := Checks.reject_bind.1 h
  obtain ⟨hsource, h⟩ := Checks.reject_bind.1 h
  refine ⟨?_, hother, fun id c hget heq => ?_⟩
  · rw [← Runtime.descriptor_isSome]
    cases hdescriptor : s.runtime.descriptor input.instrument with
    | none => simp [hdescriptor] at h
    | some descriptor => rfl
  · by_contra hkind
    refine hsource (List.any_eq_true.2 ⟨c, s.managed.mem_values.2 ⟨id, hget⟩, ?_⟩)
    exact decide_eq_true ⟨heq, hkind⟩

/-- A new definition is of an instrument that is not there, and reads one that is. -/
theorem validated_new {definition : ComponentDefinition F64} {u : Unit}
    (h : s.validateComponentDefinition definition none = .ok u) :
    s.runtime.containsInstrument definition.manifest.instrument = false ∧
      ∀ input, definition.manifest.kind = .transform input → s.Readable definition.manifest input := by
  unfold validateComponentDefinition at h
  obtain ⟨_, -, h⟩ := Checks.bind_ok.1 h
  obtain ⟨_, hidentity, h⟩ := Checks.bind_ok.1 h
  refine ⟨?_, fun input hkind => ?_⟩
  · have hfree := Checks.reject_ok.1 hidentity
    simp only [not_or, Bool.not_eq_true] at hfree
    exact hfree.2.1
  · rw [hkind] at h
    exact checkInput_ok h

/-! ### Changes -/

/-- What holds of the components still holds when the rest of the owner goes on. -/
theorem Readable.later {manifest : ComponentManifest F64} {input : SignalId} (h : s.Readable manifest input)
    (hmanaged : s'.managed = s.managed) (hshows : s'.runtime.shell.Shows input.instrument) : s'.Readable manifest input := by
  refine ⟨hshows, h.other, ?_⟩
  rw [hmanaged]
  exact h.source

theorem Unread.later {instrument : InstrumentId} (h : s.Unread instrument) (hmanaged : s'.managed = s.managed) :
    s'.Unread instrument := by
  refine ⟨?_, ?_⟩
  · rw [hmanaged]
    exact h.unpublished
  · rw [hmanaged]
    exact h.unread

theorem Flat.later (h : s.Flat) (hmanaged : s'.managed = s.managed)
    (hshows : ∀ id, s.runtime.shell.Shows id → s'.runtime.shell.Shows id)
    (hstaged : ∀ staged, s'.staged = some staged → staged.replaces = none → s.Unread staged.definition.manifest.instrument ∧
      ∀ input, staged.definition.manifest.kind = .transform input → s.Readable staged.definition.manifest input) : s'.Flat := by
  refine ⟨?_, ?_, ?_, fun staged hst hnew => ?_⟩
  · rw [hmanaged]
    exact h.described
  · rw [hmanaged]
    exact h.apart
  · intro id c input hget hkind
    rw [hmanaged] at hget
    have hreads := h.reads id c input hget hkind
    exact hreads.later hmanaged (hshows _ hreads.shown)
  · obtain ⟨hunread, hreadable⟩ := hstaged staged hst hnew
    exact ⟨hunread.later hmanaged, fun input hkind =>
      (hreadable input hkind).later hmanaged (hshows _ (hreadable input hkind).shown)⟩

/-- A component that takes the place of one, or of none, hides no instrument. -/
theorem shows_stored {id : ComponentId} {c : PublishedComponent} (hi : s.Shown)
    (hsame : ∀ old, s.managed.get id = some old → old.descriptor.id = c.descriptor.id) {instrument : InstrumentId}
    (h : s.runtime.shell.Shows instrument) : (s.withManaged (s.managed.insert id c)).runtime.shell.Shows instrument := by
  refine ⟨h.1, h.2.imp_right ?_⟩
  rintro ⟨item, hitem, heq⟩
  have hitem : item ∈ s.managed.values.map PublishedComponent.native := hi.mirrored ▸ hitem
  obtain ⟨old, hold, rfl⟩ := List.mem_map.1 hitem
  obtain ⟨other, hget⟩ := s.managed.mem_values.1 hold
  by_cases hid : other = id
  · subst hid
    refine ⟨c.native, List.mem_map.2 ⟨c, (OrderedMap.mem_values _).2 ⟨other, OrderedMap.get_insert_self _⟩, rfl⟩, ?_⟩
    rw [← heq]
    exact (hsame old hget).symm
  · exact ⟨old.native, List.mem_map.2 ⟨old, (OrderedMap.mem_values _).2 ⟨other, by rw [OrderedMap.get_insert_of_ne _ hid, hget]⟩, rfl⟩, heq⟩

/-- Another version of a component, of the same instrument and kind. -/
theorem Flat.stored (h : s.Flat) {id : ComponentId} {c c' : PublishedComponent} (hget : s.managed.get id = some c)
    (hmanaged : s'.managed = s.managed.insert id c') (hinstrument : c'.instrument = c.instrument)
    (hkind : c'.definition.manifest.kind = c.definition.manifest.kind) (hdescribed : c'.descriptor.id = c'.instrument)
    (hshows : ∀ instrument, s.runtime.shell.Shows instrument → s'.runtime.shell.Shows instrument)
    (hstaged : s'.staged = s.staged) : s'.Flat := by
  -- every component of the new state was there before, with its instrument and kind
  have hbefore : ∀ other d, s'.managed.get other = some d → ∃ d', s.managed.get other = some d' ∧ d.instrument = d'.instrument ∧
      d.definition.manifest.kind = d'.definition.manifest.kind := by
    intro other d hd
    rw [hmanaged] at hd
    obtain ⟨rfl, rfl⟩ | hold := OrderedMap.get_insert_cases _ hd
    · exact ⟨c, hget, hinstrument, hkind⟩
    · exact ⟨d, hold, rfl, rfl⟩
  have hreadable : ∀ manifest manifest' input, manifest'.instrument = manifest.instrument → s.Readable manifest input →
      s'.Readable manifest' input := by
    intro manifest manifest' input hsame hreads
    refine ⟨hshows _ hreads.shown, hsame ▸ hreads.other, fun other d hd heq => ?_⟩
    obtain ⟨d', hd', hi, hk⟩ := hbefore other d hd
    exact hk.trans (hreads.source other d' hd' (hi.symm.trans heq))
  refine ⟨fun other d hd => ?_, fun one d two e hd he heq => ?_, fun other d input hd hinput => ?_, fun staged hst hnew => ?_⟩
  · rw [hmanaged] at hd
    obtain ⟨rfl, rfl⟩ | hold := OrderedMap.get_insert_cases _ hd
    · exact hdescribed
    · exact h.described other d hold
  · obtain ⟨d', hd', hi, -⟩ := hbefore one d hd
    obtain ⟨e', he', hi', -⟩ := hbefore two e he
    exact h.apart one d' two e' hd' he' (hi.symm.trans (heq.trans hi'))
  · obtain ⟨d', hd', hi, hk⟩ := hbefore other d hd
    exact hreadable _ _ input hi (h.reads other d' input hd' (hk.symm.trans hinput))
  · rw [hstaged] at hst
    obtain ⟨hunread, hreads⟩ := h.staged staged hst hnew
    refine ⟨⟨fun other d hd => ?_, fun other d input hd hinput => ?_⟩, fun input hinput => hreadable _ _ input rfl (hreads input hinput)⟩
    · obtain ⟨d', hd', hi, -⟩ := hbefore other d hd
      rw [hi]
      exact hunread.unpublished other d' hd'
    · obtain ⟨d', hd', -, hk⟩ := hbefore other d hd
      exact hunread.unread other d' input hd' (hk.symm.trans hinput)

/-- A new component of an instrument that nothing had to do with. -/
theorem Flat.created (h : s.Flat) {id : ComponentId} {c : PublishedComponent} (hfresh : s.managed.get id = none)
    (hmanaged : s'.managed = s.managed.insert id c) (hdescribed : c.descriptor.id = c.instrument) (hunread : s.Unread c.instrument)
    (hreads : ∀ input, c.definition.manifest.kind = .transform input → s.Readable c.definition.manifest input)
    (hshows : ∀ instrument, s.runtime.shell.Shows instrument → s'.runtime.shell.Shows instrument) (hstaged : s'.staged = none) :
    s'.Flat := by
  have hreadable : ∀ manifest input, s.Readable manifest input → input.instrument ≠ c.instrument → s'.Readable manifest input := by
    intro manifest input hin hne
    refine ⟨hshows _ hin.shown, hin.other, fun other d hd heq => ?_⟩
    rw [hmanaged] at hd
    obtain ⟨rfl, rfl⟩ | hold := OrderedMap.get_insert_cases _ hd
    · exact absurd heq.symm hne
    · exact hin.source other d hold heq
  refine ⟨fun other d hd => ?_, fun one d two e hd he heq => ?_, fun other d input hd hinput => ?_, fun staged hst => ?_⟩
  · rw [hmanaged] at hd
    obtain ⟨rfl, rfl⟩ | hold := OrderedMap.get_insert_cases _ hd
    · exact hdescribed
    · exact h.described other d hold
  · rw [hmanaged] at hd he
    obtain ⟨rfl, rfl⟩ | hone := OrderedMap.get_insert_cases _ hd
    · obtain ⟨rfl, rfl⟩ | htwo := OrderedMap.get_insert_cases _ he
      · rfl
      · exact absurd heq.symm (hunread.unpublished two e htwo)
    · obtain ⟨rfl, rfl⟩ | htwo := OrderedMap.get_insert_cases _ he
      · exact absurd heq (hunread.unpublished one d hone)
      · exact h.apart one d two e hone htwo heq
  · rw [hmanaged] at hd
    obtain ⟨rfl, rfl⟩ | hold := OrderedMap.get_insert_cases _ hd
    · exact hreadable _ input (hreads input hinput) (hreads input hinput).other
    · exact hreadable _ input (h.reads other d input hold hinput) (hunread.unread other d input hold hinput)
  · rw [hstaged] at hst
    cases hst

/-- Nothing has to do with an instrument that is not there. -/
theorem Flat.unread (h : s.Flat) (hi : s.Shown) {instrument : InstrumentId} (hfree : s.runtime.containsInstrument instrument = false) :
    s.Unread instrument := by
  have habsent : ¬ (instrument ∈ s.runtime.shell.natives ∨ ∃ item ∈ s.runtime.managed, item.descriptor.id = instrument) := by
    rw [← Runtime.containsInstrument_eq, hfree]
    simp
  refine ⟨fun id c hget heq => habsent (.inr ?_), fun id c input hget hkind heq => habsent ?_⟩
  · rw [hi.mirrored]
    exact ⟨c.native, List.mem_map.2 ⟨c, s.managed.mem_values.2 ⟨id, hget⟩, rfl⟩, (h.described id c hget).trans heq⟩
  · have hshown := (h.reads id c input hget hkind).shown.2
    rwa [heq] at hshown

theorem Change.flat (h : s.Change s') (hs : s.Sound) (hshown : s.Shown) (hi : s.Flat) : s'.Flat := by
  have hkept : ∀ (t : ManagedRuntime σ ε) (id : ComponentId) (c c' : PublishedComponent), s.managed.get id = some c →
      t.managed = s.managed.insert id c' → c'.definition = c.definition → c'.descriptor = c.descriptor →
      t.runtime.shell = (s.withManaged (s.managed.insert id c')).runtime.shell → t.staged = s.staged → t.Flat := by
    intro t id c c' hget hmanaged hdefinition hdescriptor hshell hstaged
    have hinstrument : c'.instrument = c.instrument := by rw [PublishedComponent.instrument, hdefinition, PublishedComponent.instrument]
    refine hi.stored hget hmanaged hinstrument (by rw [hdefinition]) ?_ (fun instrument hin => ?_) hstaged
    · rw [hdescriptor, hi.described id c hget, hinstrument]
    · rw [hshell]
      refine shows_stored hshown (fun old hold => ?_) hin
      rw [hget] at hold
      obtain rfl := Option.some.inj hold
      rw [hdescriptor]
  cases h with
  | aside h => exact hi.later h.managed h.onward.shows fun staged hst hnew => hi.staged staged (h.staged ▸ hst) hnew
  | @staging definition replaces generation revision now prepareOnly executor runtime isOpen idle valid identity port onward =>
    refine hi.later rfl onward.shows fun staged hst hnew => ?_
    obtain rfl := Option.some.inj hst
    have hnew : replaces = none := hnew
    subst hnew
    obtain ⟨hfree, hreads⟩ := validated_new valid
    exact ⟨hi.unread hshown hfree, hreads⟩
  | @created staged result descriptor signal pending fresh valid described window =>
    have hfresh := (hs.staged _ pending).1.fresh fresh
    obtain ⟨hunread, hreads⟩ := hi.staged _ pending fresh
    refine hi.created hfresh rfl (managedDescriptor_id described) hunread hreads (fun instrument hin => ?_) rfl
    refine shows_stored hshown (fun old hold => ?_) hin
    rw [hfresh] at hold
    cases hold
  | @replaced id old definition generation result descriptor now isOpen hget own keeps next valid described seen =>
    obtain ⟨hinstrument, -, hkind, -⟩ := retains_iff.1 keeps
    have hdescribed := managedDescriptor_id described
    refine hi.stored hget rfl hinstrument.symm hkind.symm hdescribed (fun instrument hin => ?_) rfl
    refine shows_stored hshown (fun current hcurrent => ?_) hin
    rw [hget] at hcurrent
    obtain rfl := Option.some.inj hcurrent
    rw [hi.described id _ hget, hdescribed]
    exact hinstrument
  | failing hget => exact hkept _ _ _ _ hget rfl rfl rfl rfl rfl
  | invoked hget => exact hkept _ _ _ _ hget rfl rfl rfl rfl rfl
  | committed hget decided publishes clock =>
    obtain ⟨result, -, -, -, -, -, -, -, hpublished⟩ := committed_ok decided publishes
    exact hkept _ _ _ _ hget rfl (by rw [hpublished]; rfl) (by rw [hpublished]) rfl rfl
  | installed => exact hi.later rfl (fun _ hin => hin) hi.staged
  | forgotten => exact hi.later rfl (fun _ hin => hin) hi.staged
  | dropped => exact hi.later rfl (fun _ hin => hin) fun _ hst => (by cases hst)
  | retained => exact hi.later rfl (fun _ hin => hin) fun _ hst => (by cases hst)
  | quiesced => exact hi.later rfl (fun _ hin => hin) fun _ hst => (by cases hst)

/-! ### Runs -/

theorem empty_flat : (empty σ ε).Flat :=
  ⟨fun _ _ hc => (by cases hc), fun _ _ _ _ hc => (by cases hc), fun _ _ _ hc => (by cases hc), fun _ hst => (by cases hst)⟩

theorem run_flat (M : Platform σ ε) (ops : List (Op σ ε)) : (run M ops).Flat :=
  (run_keeps (I := fun s => (s.Ordered ∧ s.Shown) ∧ s.Flat)
    (fun _ _ hs hi hchange => ⟨⟨hchange.ordered hi.1.1, hchange.shown hi.1.1 hi.1.2⟩, hchange.flat hs hi.1.2 hi.2⟩)
    ⟨empty_shown, empty_flat⟩ M ops).2

/-- What may become of the registries and clocks: nothing that a query shows is lost. -/
structure Registered (s s' : ManagedRuntime σ ε) : Prop where
  outputTime : s.runtime.outputTime ≤ s'.runtime.outputTime
  transportTime : s.runtime.transportTime ≤ s'.runtime.transportTime
  shows : ∀ id, s.runtime.shell.Shows id → s'.runtime.shell.Shows id
  coherent : s.runtime.shell.Coherent → s'.runtime.shell.Coherent

theorem Registered.refl (s : ManagedRuntime σ ε) : s.Registered s := ⟨le_rfl, le_rfl, fun _ h => h, fun h => h⟩

theorem Registered.trans {s'' : ManagedRuntime σ ε} (h : s.Registered s') (h' : s'.Registered s'') : s.Registered s'' where
  outputTime := h.outputTime.trans h'.outputTime
  transportTime := h.transportTime.trans h'.transportTime
  shows id hid := h'.shows id (h.shows id hid)
  coherent hc := h'.coherent (h.coherent hc)

theorem registered_onward {runtime : Runtime σ} (h : s.runtime.Onward runtime) (hruntime : s'.runtime = runtime) :
    s.Registered s' := by
  subst hruntime
  exact ⟨h.outputTime, h.transportTime, h.shows, h.coherent⟩

/-- Storing a component leaves the native registries alone. -/
theorem registered_stored {id : ComponentId} {c : PublishedComponent} (hi : s.Shown)
    (hsame : ∀ old, s.managed.get id = some old → old.descriptor.id = c.descriptor.id)
    (hruntime : s'.runtime = (s.withManaged (s.managed.insert id c)).runtime) : s.Registered s' := by
  refine ⟨by rw [hruntime]; exact le_rfl, by rw [hruntime]; exact le_rfl, ?_, ?_⟩
  · rw [hruntime]
    exact fun instrument => shows_stored hi hsame
  · rw [hruntime]
    exact fun hc => ⟨hc.distinct, hc.limit, hc.simpleLimit, hc.prepared⟩

theorem Change.registered (h : s.Change s') (hs : s.Sound) (hi : s.Shown) (hflat : s.Flat) : s.Registered s' := by
  have hkept : ∀ (t : ManagedRuntime σ ε) (id : ComponentId) (c c' : PublishedComponent), s.managed.get id = some c →
      t.runtime = (s.withManaged (s.managed.insert id c')).runtime → c'.descriptor.id = c.descriptor.id → s.Registered t := by
    intro t id c c' hget hruntime hdescriptor
    refine registered_stored hi (fun old hold => ?_) hruntime
    rw [hget] at hold
    obtain rfl := Option.some.inj hold
    exact hdescriptor.symm
  cases h with
  | aside h => exact registered_onward h.onward rfl
  | staging isOpen idle valid identity port onward => exact registered_onward onward rfl
  | @created staged result descriptor signal pending fresh =>
    refine registered_stored hi (fun old hold => ?_) rfl
    rw [(hs.staged _ pending).1.fresh fresh] at hold
    cases hold
  | @replaced id old definition generation result descriptor now isOpen hget own keeps next valid described =>
    obtain ⟨hinstrument, -⟩ := retains_iff.1 keeps
    exact hkept _ _ _ _ hget rfl ((managedDescriptor_id described).trans (hinstrument.symm.trans (hflat.described id old hget).symm))
  | failing hget => exact hkept _ _ _ _ hget rfl rfl
  | invoked hget => exact hkept _ _ _ _ hget rfl rfl
  | committed hget decided publishes =>
    obtain ⟨result, -, -, -, -, -, -, -, hpublished⟩ := committed_ok decided publishes
    exact hkept _ _ _ _ hget rfl (by rw [hpublished])
  | _ => exact registered_onward (.refl _) rfl

/-- Whatever commands come: every native instrument is in one registry and the registries keep their limits, the clocks never go
back, and an instrument that a query shows stays there. -/
theorem registries_kept (M : Platform σ ε) (ops later : List (Op σ ε)) :
    (run M ops).runtime.shell.Coherent ∧ (run M ops).runtime.outputTime ≤ (run M (ops ++ later)).runtime.outputTime ∧
      (run M ops).runtime.transportTime ≤ (run M (ops ++ later)).runtime.transportTime ∧
      ∀ id, ((run M ops).runtime.descriptor id).isSome = true → ((run M (ops ++ later)).runtime.descriptor id).isSome = true := by
  have hregistered : ∀ {s t : ManagedRuntime σ ε}, s.Sound → (s.Ordered ∧ s.Shown) ∧ s.Flat → s.Path t → s.Registered t := by
    intro s t hs hi hpath
    have hall : s.Registered t ∧ (t.Ordered ∧ t.Shown) ∧ t.Flat := path_keeps
      (I := fun t => s.Registered t ∧ (t.Ordered ∧ t.Shown) ∧ t.Flat) (fun _ _ hs hi hchange =>
        ⟨hi.1.trans (hchange.registered hs hi.2.1.2 hi.2.2), ⟨hchange.ordered hi.2.1.1, hchange.shown hi.2.1.1 hi.2.1.2⟩,
          hchange.flat hs hi.2.1.2 hi.2.2⟩) hpath hs ⟨.refl s, hi⟩
    exact hall.1
  have hlater : (run M ops).Registered (run M (ops ++ later)) := by
    rw [run, run, History.after_append]
    exact hregistered (run_sound M ops) ⟨⟨run_ordered M ops, run_shown M ops⟩, run_flat M ops⟩ (after_path M (run_sound M ops) later)
  refine ⟨?_, hlater.outputTime, hlater.transportTime, fun id hid => ?_⟩
  · have hstart : (empty σ ε).runtime.shell.Coherent := ⟨.nil, Nat.zero_le _, Nat.zero_le _, fun _ hid => (by cases hid)⟩
    exact (hregistered empty_sound ⟨empty_shown, empty_flat⟩ (after_path M empty_sound ops)).coherent hstart
  · rw [Runtime.descriptor_isSome] at hid ⊢
    exact hlater.shows id hid

end ManagedRuntime
end LabRuntime
