import Mathlib.Data.List.Forall2

/-! Computations that stop at their first objection, and what one that passed has established. -/

namespace Checks

variable {ε α β σ : Type}

/-- Object with `e` when `bad`. -/
def reject (bad : Prop) [Decidable bad] (e : ε) : Except ε Unit := if bad then .error e else .ok ()

theorem reject_ok {bad : Prop} [Decidable bad] {e : ε} {u : Unit} : reject bad e = .ok u ↔ ¬ bad := by
  unfold reject
  split_ifs with h <;> simp [h]

theorem reject_pass {bad : Prop} [Decidable bad] {e : ε} (h : ¬ bad) : reject bad e = .ok () := reject_ok.2 h

theorem bind_ok {x : Except ε α} {f : α → Except ε β} {b : β} : (x >>= f) = .ok b ↔ ∃ a, x = .ok a ∧ f a = .ok b := by
  cases x with
  | error e => exact ⟨fun h => (nomatch h), fun ⟨_, h, _⟩ => (nomatch h)⟩
  | ok a => exact ⟨fun h => ⟨a, rfl, h⟩, fun ⟨_, h, hf⟩ => Except.ok.inj h ▸ hf⟩

theorem ok_bind (a : α) (f : α → Except ε β) : (Except.ok a >>= f) = f a := rfl

/-- A check and what follows it. -/
theorem then_ok {x : Except ε Unit} {y : Except ε β} {b : β} : (x >>= fun _ => y) = .ok b ↔ x = .ok () ∧ y = .ok b := by
  rw [bind_ok]
  exact ⟨fun ⟨_, h, hy⟩ => ⟨h, hy⟩, fun h => ⟨(), h.1, h.2⟩⟩

theorem reject_bind {bad : Prop} [Decidable bad] {e : ε} {f : Unit → Except ε β} {b : β} :
    (reject bad e >>= f) = .ok b ↔ ¬ bad ∧ f () = .ok b := by
  rw [bind_ok]
  exact ⟨fun ⟨_, h, hf⟩ => ⟨reject_ok.1 h, hf⟩, fun ⟨h, hf⟩ => ⟨(), reject_pass h, hf⟩⟩

theorem mapError_ok {δ : Type} {f : ε → δ} {x : Except ε α} {a : α} : x.mapError f = .ok a ↔ x = .ok a := by
  cases x <;> simp [Except.mapError]

theorem map_ok {f : α → β} {x : Except ε α} {b : β} : x.map f = .ok b ↔ ∃ a, x = .ok a ∧ f a = b := by
  cases x <;> simp [Except.map]

theorem pure_ok {a b : α} : (pure a : Except ε α) = .ok b ↔ a = b := by
  simp [pure, Except.pure]

/-! ### Loops -/

/-- What every round keeps, the loop keeps. -/
theorem foldlM_keeps {P : σ → Prop} {f : σ → α → Except ε σ} {xs : List α} {s s' : σ}
    (step : ∀ s, ∀ x ∈ xs, ∀ s', P s → f s x = .ok s' → P s') (h : xs.foldlM f s = .ok s') (start : P s) : P s' := by
  induction xs generalizing s with
  | nil => exact pure_ok.1 h ▸ start
  | cons x xs ih =>
    rw [List.foldlM_cons] at h
    obtain ⟨s₁, hx, hxs⟩ := bind_ok.1 h
    exact ih (fun s y hy => step s y (List.mem_cons_of_mem _ hy)) hxs (step s x List.mem_cons_self s₁ start hx)

/-- A loop that ended has ended every round. -/
theorem foldlM_visits {f : σ → α → Except ε σ} {xs : List α} {s s' : σ} (h : xs.foldlM f s = .ok s') :
    ∀ x ∈ xs, ∃ t t', f t x = .ok t' := by
  induction xs generalizing s with
  | nil => exact fun x hx => nomatch hx
  | cons x xs ih =>
    rw [List.foldlM_cons] at h
    obtain ⟨s₁, hx, hxs⟩ := bind_ok.1 h
    intro y hy
    rcases List.mem_cons.1 hy with rfl | hy
    · exact ⟨s, s₁, hx⟩
    · exact ih hxs y hy

/-- A loop whose every round another loop repeats is repeated by it. -/
theorem foldlM_repeats {δ : Type} {f : σ → α → Except ε σ} {g : σ → α → Except δ σ} {xs : List α} {s s' : σ}
    (step : ∀ s, ∀ x ∈ xs, ∀ s', f s x = .ok s' → g s x = .ok s') (h : xs.foldlM f s = .ok s') :
    xs.foldlM g s = .ok s' := by
  induction xs generalizing s with
  | nil => exact pure_ok.2 (pure_ok.1 h)
  | cons x xs ih =>
    rw [List.foldlM_cons] at h ⊢
    obtain ⟨s₁, hx, hxs⟩ := bind_ok.1 h
    exact bind_ok.2 ⟨s₁, step s x List.mem_cons_self s₁ hx, ih (fun s y hy => step s y (List.mem_cons_of_mem _ hy)) hxs⟩

/-- A loop that only checks has checked every element. -/
theorem forM_ok {f : α → Except ε Unit} {xs : List α} : xs.forM f = .ok () ↔ ∀ x ∈ xs, f x = .ok () := by
  induction xs with
  | nil =>
    refine ⟨?_, fun _ => rfl⟩
    intro _ x hx
    exact absurd hx List.not_mem_nil
  | cons x xs ih =>
    rw [List.forall_mem_cons, ← ih]
    refine bind_ok.trans ⟨?_, ?_⟩
    · rintro ⟨_, hx, hxs⟩
      exact ⟨hx, hxs⟩
    · intro h
      exact ⟨(), h.1, h.2⟩

/-- An element that passes wherever another one does may take its place. -/
theorem foldlM_replace {f : σ → α → Except ε σ} {before after : List α} {x y : α} {s t : σ}
    (step : ∀ s s', f s x = .ok s' → f s y = .ok s') (h : (before ++ x :: after).foldlM f s = .ok t) :
    (before ++ y :: after).foldlM f s = .ok t := by
  rw [List.foldlM_append, bind_ok] at h ⊢
  obtain ⟨s₁, hbefore, h⟩ := h
  rw [List.foldlM_cons, bind_ok] at h
  obtain ⟨s₂, hx, hafter⟩ := h
  refine ⟨s₁, hbefore, ?_⟩
  rw [List.foldlM_cons, bind_ok]
  exact ⟨s₂, step s₁ s₂ hx, hafter⟩

/-- A pass over a list answers its elements one by one. -/
theorem mapM_ok {f : α → Except ε β} {xs : List α} {ys : List β} :
    xs.mapM f = .ok ys ↔ List.Forall₂ (fun x y => f x = .ok y) xs ys := by
  induction xs generalizing ys with
  | nil =>
    rw [List.mapM_nil, pure_ok, List.forall₂_nil_left_iff]
    exact eq_comm
  | cons x xs ih =>
    rw [List.mapM_cons, List.forall₂_cons_left_iff, bind_ok]
    constructor
    · rintro ⟨y, hx, h⟩
      obtain ⟨zs, hxs, h⟩ := bind_ok.1 h
      exact ⟨y, zs, hx, ih.1 hxs, (pure_ok.1 h).symm⟩
    · rintro ⟨y, zs, hx, hxs, rfl⟩
      exact ⟨y, hx, bind_ok.2 ⟨zs, ih.2 hxs, rfl⟩⟩

/-- Every answer of a pass answers some element. -/
theorem mapM_mem {f : α → Except ε β} {xs : List α} {ys : List β} (h : xs.mapM f = .ok ys) :
    ∀ y ∈ ys, ∃ x ∈ xs, f x = .ok y := by
  intro y hy
  obtain ⟨i, hi, rfl⟩ := List.mem_iff_getElem.1 hy
  obtain ⟨hlength, hget⟩ := List.forall₂_iff_get.1 (mapM_ok.1 h)
  exact ⟨xs.get ⟨i, hlength ▸ hi⟩, List.get_mem _ _, hget i _ hi⟩

end Checks
