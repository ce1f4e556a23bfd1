import Mathlib.Data.List.Nodup
import Mathlib.Data.List.Range

/-! Streams with consecutive numbers whose names come from one counter. A stream may be
forgotten at any time; its name is not used again, so no number of it is given out twice. -/

structure Ledger (ι : Type*) where
  next : ℕ
  live : ι → Option ℕ

namespace Ledger

variable {ι : Type*}

inductive Entry (ι : Type*)
  | quiet
  | issued (id : ι)
  | accepted (id : ι) (seq : ℕ)

inductive Step (name : ℕ → ι) : Ledger ι → Entry ι → Ledger ι → Prop
  | quiet {l l'} (hnext : l'.next = l.next) (hlive : ∀ id n, l'.live id = some n → l.live id = some n) :
    Step name l .quiet l'
  | issue {l l'} (hnext : l'.next = l.next + 1) (hnew : l'.live (name l.next) = some 0)
      (hlive : ∀ id n, id ≠ name l.next → l'.live id = some n → l.live id = some n) :
    Step name l (.issued (name l.next)) l'
  | accept {l l' id n} (hnext : l'.next = l.next) (hold : l.live id = some n)
      (hnew : l'.live id = some (n + 1))
      (hlive : ∀ id' k, id' ≠ id → l'.live id' = some k → l.live id' = some k) :
    Step name l (.accepted id (n + 1)) l'

inductive Run (name : ℕ → ι) (l₀ : Ledger ι) : List (Entry ι) → Ledger ι → Prop
  | nil : Run name l₀ [] l₀
  | snoc {es e l l'} (run : Run name l₀ es l) (step : Step name l e l') : Run name l₀ (es ++ [e]) l'

def Entry.name? : Entry ι → Option ι
  | .issued id => some id
  | _ => none

def Entry.number? : Entry ι → Option (ι × ℕ)
  | .accepted id seq => some (id, seq)
  | _ => none

def issued (es : List (Entry ι)) : List ι := es.filterMap Entry.name?

def accepted (es : List (Entry ι)) : List (ι × ℕ) := es.filterMap Entry.number?

/-- The numbers accepted on one stream, in order. -/
def numbers [DecidableEq ι] (es : List (Entry ι)) (id : ι) : List ℕ :=
  ((accepted es).filter fun p => p.1 = id).map Prod.snd

@[simp] theorem issued_snoc (es : List (Entry ι)) (e : Entry ι) :
    issued (es ++ [e]) = issued es ++ e.name?.toList := by
  cases e <;> simp [issued, Entry.name?]

@[simp] theorem accepted_snoc (es : List (Entry ι)) (e : Entry ι) :
    accepted (es ++ [e]) = accepted es ++ e.number?.toList := by
  cases e <;> simp [accepted, Entry.number?]

variable [DecidableEq ι]

theorem numbers_snoc (es : List (Entry ι)) (e : Entry ι) (id : ι) :
    numbers (es ++ [e]) id =
      numbers es id ++ (e.number?.toList.filter fun p => p.1 = id).map Prod.snd := by
  simp [numbers]

theorem count_accepted (ps : List (ι × ℕ)) (id : ι) (n : ℕ) :
    ps.count (id, n) = ((ps.filter fun p => p.1 = id).map Prod.snd).count n := by
  induction ps with
  | nil => rfl
  | cons p ps ih =>
    obtain ⟨id', n'⟩ := p
    by_cases h : id' = id
    · subst h
      by_cases hn : n' = n
      · subst hn; simp [ih]
      · simp [ih, hn]
    · simp [ih, h]

structure Inv (name : ℕ → ι) (es : List (Entry ι)) (l : Ledger ι) : Prop where
  numbered : ∀ id n, l.live id = some n → numbers es id = List.range' 1 n ∧ id ∈ issued es
  consecutive : ∀ id, ∃ n, numbers es id = List.range' 1 n
  unissued : ∀ id, id ∉ issued es → numbers es id = []
  named : ∀ id ∈ issued es, ∃ k < l.next, id = name k
  nodup : (issued es).Nodup

theorem Step.inv {name : ℕ → ι} (hname : name.Injective) {es : List (Entry ι)} {l l' : Ledger ι}
    {e : Entry ι} (step : Step name l e l') (h : Inv name es l) : Inv name (es ++ [e]) l' := by
  cases step with
  | quiet hnext hlive =>
    refine ⟨fun id n hid => ?_, fun id => ?_, fun id hid => ?_, fun id hid => ?_, ?_⟩
    · simpa [numbers_snoc, Entry.number?, Entry.name?] using h.numbered id n (hlive id n hid)
    · simpa [numbers_snoc, Entry.number?] using h.consecutive id
    · simpa [numbers_snoc, Entry.number?] using h.unissued id (by simpa [Entry.name?] using hid)
    · rw [hnext]
      exact h.named id (by simpa [Entry.name?] using hid)
    · simpa [Entry.name?] using h.nodup
  | issue hnext hnew hlive =>
    -- the counter's name is above every name given out so far
    have hfresh : name l.next ∉ issued es := fun hmem => by
      obtain ⟨k, hk, heq⟩ := h.named _ hmem
      exact hk.ne' (hname heq)
    refine ⟨fun id n hid => ?_, fun id => ?_, fun id hid => ?_, fun id hid => ?_, ?_⟩
    · by_cases heq : id = name l.next
      · subst heq
        obtain rfl : 0 = n := Option.some.inj (hnew.symm.trans hid)
        simpa [numbers_snoc, Entry.number?, Entry.name?] using h.unissued _ hfresh
      · have hold := h.numbered id n (hlive id n heq hid)
        simp [numbers_snoc, Entry.number?, Entry.name?, hold]
    · simpa [numbers_snoc, Entry.number?] using h.consecutive id
    · have hid : id ∉ issued es := fun hmem => hid (by simp [hmem])
      simpa [numbers_snoc, Entry.number?] using h.unissued id hid
    · rw [hnext]
      rcases (by simpa [Entry.name?] using hid : id ∈ issued es ∨ id = name l.next) with hmem | rfl
      · obtain ⟨k, hk, heq⟩ := h.named id hmem
        exact ⟨k, hk.trans l.next.lt_succ_self, heq⟩
      · exact ⟨l.next, l.next.lt_succ_self, rfl⟩
    · rw [issued_snoc]
      exact List.nodup_append.2 ⟨h.nodup, by simp [Entry.name?], fun a ha b hb => by
        simp only [Entry.name?, Option.toList_some, List.mem_singleton] at hb
        rintro rfl
        exact hfresh (hb ▸ ha)⟩
  | @accept _ id n hnext hold hnew hlive =>
    obtain ⟨hnum, hmem⟩ := h.numbered id n hold
    have hself : numbers (es ++ [.accepted id (n + 1)]) id = List.range' 1 (n + 1) := by
      simp [numbers_snoc, Entry.number?, hnum, List.range'_1_concat, Nat.add_comm]
    have hother : ∀ id', id' ≠ id →
        numbers (es ++ [.accepted id (n + 1)]) id' = numbers es id' := fun id' hne => by
      simp [numbers_snoc, Entry.number?, hne.symm]
    refine ⟨fun id' k hid => ?_, fun id' => ?_, fun id' hid => ?_, fun id' hid => ?_, ?_⟩
    · by_cases heq : id' = id
      · subst heq
        obtain rfl : n + 1 = k := Option.some.inj (hnew.symm.trans hid)
        exact ⟨hself, by simp [hmem]⟩
      · rw [hother id' heq]
        have := h.numbered id' k (hlive id' k heq hid)
        exact ⟨this.1, by simp [this.2]⟩
    · by_cases heq : id' = id
      · rw [heq]
        exact ⟨n + 1, hself⟩
      · rw [hother id' heq]
        exact h.consecutive id'
    · have hne : id' ≠ id := by
        rintro rfl
        exact hid (by simp [hmem])
      rw [hother id' hne]
      exact h.unissued id' fun hm => hid (by simp [hm])
    · rw [hnext]
      exact h.named id' (by simpa [Entry.name?] using hid)
    · simpa [Entry.name?] using h.nodup

theorem Run.inv {name : ℕ → ι} (hname : name.Injective) {l₀ l : Ledger ι} (hl : ∀ id, l₀.live id = none)
    {es : List (Entry ι)} (run : Run name l₀ es l) : Inv name es l := by
  induction run with
  | nil =>
    refine ⟨fun id n h => ?_, fun id => ⟨0, rfl⟩, fun _ _ => rfl, fun _ h => by simp [issued] at h, List.nodup_nil⟩
    rw [hl id] at h
    cases h
  | snoc _ step ih => exact step.inv hname ih

/-- No number of a stream is accepted twice. -/
theorem Inv.accepted_nodup {name : ℕ → ι} {es : List (Entry ι)} {l : Ledger ι} (h : Inv name es l) :
    (accepted es).Nodup := by
  rw [List.nodup_iff_count_le_one]
  rintro ⟨id, n⟩
  obtain ⟨k, hk⟩ := h.consecutive id
  rw [count_accepted, ← numbers, hk]
  exact List.nodup_iff_count_le_one.1 List.nodup_range' n

end Ledger
