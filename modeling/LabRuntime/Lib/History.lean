import Mathlib.Data.List.Induction

/-! Runs of a deterministic machine and statements about their past: an event happened, an
event happened and another kind has not happened since. -/

namespace History

variable {σ ε : Type*} (step : σ → ε → σ)

/-- The state a run of events ends in. -/
def after (s : σ) (es : List ε) : σ := es.foldl step s

@[simp] theorem after_nil (s : σ) : after step s [] = s := rfl

@[simp] theorem after_cons (s : σ) (e : ε) (es : List ε) :
    after step s (e :: es) = after step (step s e) es := rfl

@[simp] theorem after_append (s : σ) (es fs : List ε) :
    after step s (es ++ fs) = after step (after step s es) fs := List.foldl_append

theorem after_replicate_succ (s : σ) (e : ε) (n : ℕ) :
    after step s (List.replicate (n + 1) e) = step (after step s (List.replicate n e)) e := by
  rw [List.replicate_succ', after_append]
  rfl

/-- Every step keeps the property. -/
def Stable (I : σ → Prop) : Prop := ∀ s e, I s → I (step s e)

variable {step}

theorem Stable.after {I : σ → Prop} (h : Stable step I) {s : σ} (hs : I s) (es : List ε) :
    I (after step s es) := by
  induction es generalizing s with
  | nil => exact hs
  | cons e es ih => exact ih (h s e hs)

theorem Stable.and {I J : σ → Prop} (hI : Stable step I) (hJ : ∀ s e, I s → J s → J (step s e)) :
    Stable step (fun s => I s ∧ J s) :=
  fun s e h => ⟨hI s e h.1, hJ s e h.1 h.2⟩

/-- What the run so far says of the state it ends in, by induction on its last event. -/
theorem run_induction {s : σ} {I : List ε → σ → Prop} (nil : I [] s)
    (snoc : ∀ es e, I es (History.after step s es) →
      I (es ++ [e]) (step (History.after step s es) e)) :
    ∀ es, I es (History.after step s es) := by
  intro es
  induction es using List.reverseRecOn with
  | nil => exact nil
  | append_singleton es e ih => simpa using snoc es e ih

variable (step)

/-- An event of the run had the property in the state it met. -/
def Happens (P : σ → ε → Prop) (s : σ) (es : List ε) : Prop :=
  ∃ pre e post, es = pre ++ e :: post ∧ P (after step s pre) e

/-- An event of the run had `P` in the state it met, and no later one had `Q`. -/
def Since (P Q : σ → ε → Prop) (s : σ) (es : List ε) : Prop :=
  ∃ pre e post, es = pre ++ e :: post ∧ P (after step s pre) e ∧
    ¬ Happens step Q (after step s (pre ++ [e])) post

variable {step} {P Q : σ → ε → Prop} {s : σ} {es fs : List ε}

theorem not_happens_nil : ¬ Happens step P s [] := by
  rintro ⟨pre, e, post, h, -⟩
  simp at h

theorem Happens.append (h : Happens step P s es) (fs : List ε) : Happens step P s (es ++ fs) := by
  obtain ⟨pre, e, post, rfl, hP⟩ := h
  exact ⟨pre, e, post ++ fs, by simp, hP⟩

theorem happens_snoc (e : ε) :
    Happens step P s (es ++ [e]) ↔ Happens step P s es ∨ P (after step s es) e := by
  constructor
  · rintro ⟨pre, f, post, h, hP⟩
    -- the last event of the run is the one meant, or one after it
    rcases List.eq_nil_or_concat post with rfl | ⟨post, g, rfl⟩
    · obtain ⟨rfl, hf⟩ := List.append_inj' h rfl
      obtain rfl : e = f := by simpa using hf
      exact .inr hP
    · rw [show pre ++ f :: post.concat g = (pre ++ f :: post) ++ [g] by simp] at h
      obtain ⟨rfl, -⟩ := List.append_inj' h rfl
      exact .inl ⟨pre, f, post, rfl, hP⟩
  · rintro (h | h)
    · exact h.append _
    · exact ⟨es, e, [], rfl, h⟩

theorem happens_append :
    Happens step P s (es ++ fs) ↔ Happens step P s es ∨ Happens step P (after step s es) fs := by
  induction fs using List.reverseRecOn with
  | nil => simp [not_happens_nil]
  | append_singleton fs e ih =>
    rw [← List.append_assoc, happens_snoc, happens_snoc, ih, after_append, or_assoc]

theorem happens_cons (e : ε) :
    Happens step P s (e :: es) ↔ P s e ∨ Happens step P (step s e) es := by
  rw [← List.singleton_append, happens_append, after_cons, after_nil]
  refine or_congr_left ?_
  rw [← List.nil_append [e], happens_snoc, after_nil]
  simp [not_happens_nil]

instance decidableHappens [∀ s e, Decidable (P s e)] (s : σ) : ∀ es, Decidable (Happens step P s es)
  | [] => .isFalse not_happens_nil
  | e :: es =>
    have := decidableHappens (step s e) es
    decidable_of_iff _ (happens_cons e).symm

theorem Happens.mono {P' : σ → ε → Prop} (h : Happens step P s es) (hP : ∀ s e, P s e → P' s e) :
    Happens step P' s es := by
  obtain ⟨pre, e, post, h, hp⟩ := h
  exact ⟨pre, e, post, h, hP _ _ hp⟩

theorem Since.happens (h : Since step P Q s es) : Happens step P s es := by
  obtain ⟨pre, e, post, h, hp, -⟩ := h
  exact ⟨pre, e, post, h, hp⟩

theorem Since.snoc (h : Since step P Q s es) (e : ε) (hQ : ¬ Q (after step s es) e) :
    Since step P Q s (es ++ [e]) := by
  obtain ⟨pre, f, post, rfl, hP, hn⟩ := h
  refine ⟨pre, f, post ++ [e], by simp, hP, ?_⟩
  rw [happens_snoc]
  rintro (h | h)
  · exact hn h
  · refine hQ ?_
    rwa [show pre ++ f :: post = (pre ++ [f]) ++ post by simp, after_append]

theorem Since.last (e : ε) (hP : P (after step s es) e) : Since step P Q s (es ++ [e]) :=
  ⟨es, e, [], rfl, hP, not_happens_nil⟩

theorem Since.of_snoc {e : ε} (h : Since step P Q s (es ++ [e])) :
    P (after step s es) e ∨ ¬ Q (after step s es) e := by
  obtain ⟨pre, f, post, heq, hP, hn⟩ := h
  rcases List.eq_nil_or_concat post with rfl | ⟨post, g, rfl⟩
  · obtain ⟨rfl, hf⟩ := List.append_inj' heq rfl
    obtain rfl : e = f := by simpa using hf
    exact .inl hP
  · rw [show pre ++ f :: post.concat g = (pre ++ f :: post) ++ [g] by simp] at heq
    obtain ⟨rfl, hg⟩ := List.append_inj' heq rfl
    obtain rfl : e = g := by simpa using hg
    refine .inr fun hq => hn ⟨post, e, [], by simp, ?_⟩
    rwa [← after_append, List.append_assoc, List.singleton_append]

/-- A property that an event establishes and that every step keeps still holds at the end. -/
theorem Stable.of_happens {I : σ → Prop} (h : Stable step I) (hP : ∀ s e, P s e → I (step s e))
    (hp : Happens step P s es) : I (History.after step s es) := by
  obtain ⟨pre, e, post, rfl, hp⟩ := hp
  rw [after_append, after_cons]
  exact h.after (hP _ _ hp) post

/-! ### Events with what follows them -/

/-- Every event of the list has the property together with what follows it. -/
def Onward (P : ε → List ε → Prop) (es : List ε) : Prop :=
  ∀ pre e post, es = pre ++ e :: post → P e post

variable {R R' : ε → List ε → Prop}

theorem onward_nil : Onward R [] := by
  intro pre e post h
  simp at h

theorem Onward.mono (h : Onward R es) (hR : ∀ e post, R e post → R' e post) : Onward R' es :=
  fun pre e post heq => hR e post (h pre e post heq)

theorem onward_append :
    Onward R (es ++ fs) ↔ Onward (fun e post => R e (post ++ fs)) es ∧ Onward R fs := by
  constructor
  · intro h
    refine ⟨?_, ?_⟩
    · rintro pre e post rfl
      exact h pre e (post ++ fs) (by simp)
    · rintro pre e post rfl
      exact h (es ++ pre) e post (by simp)
  · rintro ⟨hes, hfs⟩ pre e post heq
    rcases List.append_eq_append_iff.1 heq with ⟨mid, rfl, hmid⟩ | ⟨mid, rfl, hmid⟩
    · exact hfs mid e post hmid
    · cases mid with
      | nil =>
        exact hfs [] e post (by simpa using hmid.symm)
      | cons f mid =>
        obtain ⟨rfl, rfl⟩ : e = f ∧ post = mid ++ fs := by simpa using hmid
        exact hes pre e mid rfl

theorem onward_of_forall (h : ∀ e ∈ es, ∀ post, R e post) : Onward R es := by
  rintro pre e post rfl
  exact h e (by simp) post

theorem onward_cons {e : ε} : Onward R (e :: es) ↔ R e es ∧ Onward R es := by
  constructor
  · exact fun h => ⟨h [] e es rfl, fun pre f post heq => h (e :: pre) f post (by rw [heq]; rfl)⟩
  · rintro ⟨he, hes⟩ pre f post heq
    cases pre with
    | nil =>
      obtain ⟨rfl, rfl⟩ : e = f ∧ es = post := by simpa using heq
      exact he
    | cons g pre =>
      obtain ⟨rfl, htail⟩ : e = g ∧ es = pre ++ f :: post := by simpa using heq
      exact hes pre f post htail

/-! ### Events with what precedes them -/

/-- Every event of the list has the property together with what precedes it. -/
def Hitherto (P : List ε → ε → Prop) (es : List ε) : Prop :=
  ∀ pre e post, es = pre ++ e :: post → P pre e

variable {T : List ε → ε → Prop}

theorem hitherto_nil : Hitherto T [] := by
  intro pre e post h
  simp at h

theorem Hitherto.left (h : Hitherto T (es ++ fs)) : Hitherto T es := by
  rintro pre e post rfl
  exact h pre e (post ++ fs) (by simp)

theorem Hitherto.of_prefix (h : Hitherto T es) (hfront : fs <+: es) : Hitherto T fs := by
  obtain ⟨rest, rfl⟩ := hfront
  exact h.left

theorem Hitherto.next {e : ε} (h : Hitherto T (es ++ e :: fs)) : T es e := h es e fs rfl

theorem hitherto_cons {e : ε} : Hitherto T (e :: es) ↔ T [] e ∧ Hitherto (fun pre => T (e :: pre)) es := by
  constructor
  · intro h
    refine ⟨h [] e es rfl, ?_⟩
    rintro pre f post rfl
    exact h (e :: pre) f post rfl
  · rintro ⟨he, hes⟩ pre f post heq
    cases pre with
    | nil =>
      obtain ⟨rfl, rfl⟩ := List.cons.inj heq
      exact he
    | cons g pre =>
      obtain ⟨rfl, htail⟩ := List.cons.inj heq
      exact hes pre f post htail

theorem hitherto_snoc {e : ε} : Hitherto T (es ++ [e]) ↔ Hitherto T es ∧ T es e := by
  constructor
  · exact fun h => ⟨h.left, h.next⟩
  · rintro ⟨hes, he⟩ pre f post heq
    -- the last event is the one meant, or one after it
    rcases List.eq_nil_or_concat post with rfl | ⟨post, g, rfl⟩
    · obtain ⟨rfl, hf⟩ := List.append_inj' heq rfl
      obtain rfl : e = f := by simpa using hf
      exact he
    · rw [show pre ++ f :: post.concat g = (pre ++ f :: post) ++ [g] by simp] at heq
      obtain ⟨rfl, -⟩ := List.append_inj' heq rfl
      exact hes pre f post rfl

end History
