import Mathlib.Order.Defs.Unbundled

/-! Stateful steps that may stop early. A step that stops keeps the state it has reached, so
what it did before is not undone. -/

def Procedure (σ ε α : Type) : Type := σ → Except ε α × σ

namespace Procedure

variable {σ ε α β : Type}

/-- The result of a step and the state it leaves. -/
def run (x : Procedure σ ε α) (s : σ) : Except ε α × σ := x s

protected def pure (a : α) : Procedure σ ε α := fun s => (.ok a, s)

protected def bind (x : Procedure σ ε α) (f : α → Procedure σ ε β) : Procedure σ ε β := fun s =>
  match x s with
  | (.ok a, s) => f a s
  | (.error e, s) => (.error e, s)

instance : Monad (Procedure σ ε) where
  pure := Procedure.pure
  bind := Procedure.bind

instance : MonadStateOf σ (Procedure σ ε) where
  get := fun s => (.ok s, s)
  set := fun s _ => (.ok (), s)
  modifyGet := fun f s => (.ok (f s).1, (f s).2)

/-- Stop with `e`. -/
def stop (e : ε) : Procedure σ ε α := fun s => (.error e, s)

/-- A result computed beside the state, as a step. -/
def lift (result : Except ε α) : Procedure σ ε α := fun s => (result, s)

/-- Do this for every element in turn; the first that stops ends the loop. -/
def forEach (xs : List β) (f : β → Procedure σ ε Unit) : Procedure σ ε Unit :=
  match xs with
  | [] => pure ()
  | x :: xs => do f x; forEach xs f

/-! ### Runs -/

@[simp] theorem run_pure (a : α) (s : σ) : (pure a : Procedure σ ε α).run s = (.ok a, s) := rfl

@[simp] theorem run_stop (e : ε) (s : σ) : (stop e : Procedure σ ε α).run s = (.error e, s) := rfl

@[simp] theorem run_lift (result : Except ε α) (s : σ) : (lift result : Procedure σ ε α).run s = (result, s) := rfl

@[simp] theorem run_get (s : σ) : (get : Procedure σ ε σ).run s = (.ok s, s) := rfl

@[simp] theorem run_set (s s' : σ) : (set s' : Procedure σ ε PUnit).run s = (.ok ⟨⟩, s') := rfl

@[simp] theorem run_modify (f : σ → σ) (s : σ) : (modify f : Procedure σ ε PUnit).run s = (.ok ⟨⟩, f s) := rfl

theorem run_bind (x : Procedure σ ε α) (f : α → Procedure σ ε β) (s : σ) :
    (x >>= f).run s = match x.run s with
      | (.ok a, s) => (f a).run s
      | (.error e, s) => (.error e, s) := rfl

theorem run_bind_ok {x : Procedure σ ε α} {f : α → Procedure σ ε β} {s s' : σ} {a : α} (h : x.run s = (.ok a, s')) :
    (x >>= f).run s = (f a).run s' := by rw [run_bind, h]

theorem run_bind_error {x : Procedure σ ε α} {f : α → Procedure σ ε β} {s s' : σ} {e : ε} (h : x.run s = (.error e, s')) :
    (x >>= f).run s = (.error e, s') := by rw [run_bind, h]

@[simp] theorem run_get_bind (f : σ → Procedure σ ε β) (s : σ) : (get >>= f).run s = (f s).run s := rfl

@[simp] theorem run_modify_bind (g : σ → σ) (f : PUnit → Procedure σ ε β) (s : σ) :
    (modify g >>= f).run s = (f ⟨⟩).run (g s) := rfl

@[simp] theorem run_pure_bind (a : α) (f : α → Procedure σ ε β) (s : σ) : (pure a >>= f).run s = (f a).run s := rfl

@[simp] theorem run_stop_bind (e : ε) (f : α → Procedure σ ε β) (s : σ) :
    ((stop e : Procedure σ ε α) >>= f).run s = (.error e, s) := rfl

@[simp] theorem run_lift_ok_bind (a : α) (f : α → Procedure σ ε β) (s : σ) :
    (lift (.ok a) >>= f).run s = (f a).run s := rfl

@[simp] theorem run_lift_error_bind (e : ε) (f : α → Procedure σ ε β) (s : σ) :
    (lift (.error e) >>= f).run s = (.error e, s) := rfl

/-- Success of a sequence is success of its first step and of the rest from there. -/
theorem bind_ok {x : Procedure σ ε α} {f : α → Procedure σ ε β} {s s' : σ} {b : β} :
    (x >>= f).run s = (.ok b, s') ↔ ∃ a s₁, x.run s = (.ok a, s₁) ∧ (f a).run s₁ = (.ok b, s') := by
  rw [run_bind]
  obtain ⟨result, s₁⟩ := x.run s
  cases result with
  | ok a =>
    refine ⟨fun h => ⟨a, s₁, rfl, h⟩, ?_⟩
    rintro ⟨a', s', h, hf⟩
    cases h
    exact hf
  | error e => simp

@[simp] theorem run_forEach_nil (f : β → Procedure σ ε Unit) (s : σ) : (forEach [] f).run s = (.ok (), s) := rfl

theorem forEach_cons (x : β) (xs : List β) (f : β → Procedure σ ε Unit) :
    forEach (x :: xs) f = (f x >>= fun _ => forEach xs f) := rfl

/-- What a sequence leaves is what its first step leaves, or what the rest leaves from there. -/
theorem bind_cases (x : Procedure σ ε α) (f : α → Procedure σ ε β) (s : σ) :
    (∃ e s₁, x.run s = (.error e, s₁) ∧ (x >>= f).run s = (.error e, s₁)) ∨
      ∃ a s₁, x.run s = (.ok a, s₁) ∧ (x >>= f).run s = (f a).run s₁ := by
  rcases hrun : x.run s with ⟨e | a, s₁⟩
  · exact .inl ⟨e, s₁, rfl, run_bind_error hrun⟩
  · exact .inr ⟨a, s₁, rfl, run_bind_ok hrun⟩

/-- Replacing a result leaves the state alone. -/
theorem run_bind_pure (x : Procedure σ ε α) (f : α → β) (s : σ) :
    ((x >>= fun a => pure (f a)).run s).2 = (x.run s).2 := by
  obtain ⟨e, s₁, hrun, heq⟩ | ⟨a, s₁, hrun, heq⟩ := bind_cases x (fun a => (pure (f a) : Procedure σ ε β)) s
  · rw [heq, hrun]
  · rw [heq, hrun, run_pure]

/-! ### What a step may change -/

/-- Whatever its result, the step moves the state along `R`. -/
def Moves (R : σ → σ → Prop) (x : Procedure σ ε α) : Prop := ∀ s, R s (x.run s).2

section Moves

variable {R : σ → σ → Prop}

theorem Moves.mono {R' : σ → σ → Prop} {x : Procedure σ ε α} (h : Moves R x) (hR : ∀ s s', R s s' → R' s s') :
    Moves R' x := fun s => hR _ _ (h s)

theorem Moves.update {f : σ → σ} (h : ∀ s, R s (f s)) : Moves R (modify f : Procedure σ ε PUnit) := h

variable [Std.Refl R]

theorem Moves.pure (a : α) : Moves R (Pure.pure a : Procedure σ ε α) := fun s => Std.Refl.refl s

theorem Moves.stop (e : ε) : Moves R (Procedure.stop e : Procedure σ ε α) := fun s => Std.Refl.refl s

theorem Moves.lift (result : Except ε α) : Moves R (Procedure.lift result : Procedure σ ε α) := fun s => Std.Refl.refl s

theorem Moves.get : Moves R (MonadState.get : Procedure σ ε σ) := fun s => Std.Refl.refl s

variable [IsTrans σ R]

omit [Std.Refl R] in
/-- From one state: what the first step does there, and then whatever follows. -/
theorem Moves.bind_from {x : Procedure σ ε α} {f : α → Procedure σ ε β} {s : σ} (hx : R s (x.run s).2)
    (hf : ∀ a, Moves R (f a)) : R s ((x >>= f).run s).2 := by
  rw [run_bind]
  cases hrun : x.run s with
  | mk result s₁ =>
    rw [hrun] at hx
    cases result with
    | ok a => exact trans_of R hx (hf a s₁)
    | error e => exact hx

omit [Std.Refl R] in
/-- From one state: what the first step does there, and what follows where it succeeds. -/
theorem Moves.bind_at {x : Procedure σ ε α} {f : α → Procedure σ ε β} {s : σ} (hx : R s (x.run s).2)
    (hf : ∀ a s₁, x.run s = (.ok a, s₁) → R s₁ ((f a).run s₁).2) : R s ((x >>= f).run s).2 := by
  obtain ⟨e, s₁, hrun, heq⟩ | ⟨a, s₁, hrun, heq⟩ := bind_cases x f s
  · rw [hrun] at hx
    rwa [heq]
  · rw [hrun] at hx
    rw [heq]
    exact trans_of R hx (hf a s₁ hrun)

omit [Std.Refl R] in
theorem Moves.bind {x : Procedure σ ε α} {f : α → Procedure σ ε β} (hx : Moves R x) (hf : ∀ a, Moves R (f a)) :
    Moves R (x >>= f) := fun s => Moves.bind_from (hx s) hf

/-- A check that stops, or what follows it. -/
theorem Moves.guard {p : Prop} [Decidable p] {e : ε} {f : Unit → Procedure σ ε β} (hf : ∀ u, Moves R (f u)) :
    Moves R (if p then Procedure.stop e >>= f else f ()) := by
  by_cases hp : p
  · rw [if_pos hp]
    exact .bind (.stop e) hf
  · rw [if_neg hp]
    exact hf ()

omit [IsTrans σ R] in
/-- From one state: a check that stops, or what follows where it passes. -/
theorem Moves.guard_at {p : Prop} [Decidable p] {e : ε} {f : Unit → Procedure σ ε β} {s : σ}
    (hf : ¬ p → R s ((f ()).run s).2) : R s ((if p then Procedure.stop e >>= f else f ()).run s).2 := by
  by_cases hp : p
  · rw [if_pos hp]
    exact Std.Refl.refl s
  · rw [if_neg hp]
    exact hf hp

omit [IsTrans σ R] in
/-- From one state: a result computed beside it, and what follows where it is one. -/
theorem Moves.lift_at {result : Except ε α} {f : α → Procedure σ ε β} {s : σ}
    (hf : ∀ a, result = .ok a → R s ((f a).run s).2) : R s ((Procedure.lift result >>= f).run s).2 := by
  cases result with
  | error e => exact Std.Refl.refl s
  | ok a => exact hf a rfl

theorem Moves.forEach {xs : List β} {f : β → Procedure σ ε Unit} (h : ∀ x ∈ xs, Moves R (f x)) :
    Moves R (Procedure.forEach xs f) := by
  induction xs with
  | nil => exact .pure ()
  | cons x xs ih =>
    exact .bind (h x List.mem_cons_self) fun _ => ih fun y hy => h y (List.mem_cons_of_mem _ hy)

end Moves

/-! ### How a step may stop -/

/-- The step stops only with an error in `P`. -/
def Stops (P : ε → Prop) (x : Procedure σ ε α) : Prop := ∀ s e, (x.run s).1 = .error e → P e

section Stops

variable {P : ε → Prop}

theorem Stops.pure (a : α) : Stops P (Pure.pure a : Procedure σ ε α) := fun _ _ => nofun

theorem Stops.stop {e : ε} (h : P e) : Stops P (Procedure.stop e : Procedure σ ε α) := fun _ _ he => by
  cases he
  exact h

theorem Stops.get : Stops P (MonadState.get : Procedure σ ε σ) := fun _ _ => nofun

theorem Stops.set (s : σ) : Stops P (MonadStateOf.set s : Procedure σ ε PUnit) := fun _ _ => nofun

theorem Stops.modify (f : σ → σ) : Stops P (modify f : Procedure σ ε PUnit) := fun _ _ => nofun

/-- From one state: the first step stops, or what follows does where it succeeds. -/
theorem Stops.bind_at {x : Procedure σ ε α} {f : α → Procedure σ ε β} {s : σ} (hx : ∀ e, (x.run s).1 = .error e → P e)
    (hf : ∀ a s₁, x.run s = (.ok a, s₁) → ∀ e, ((f a).run s₁).1 = .error e → P e) (e : ε)
    (h : ((x >>= f).run s).1 = .error e) : P e := by
  obtain ⟨e', s₁, hrun, heq⟩ | ⟨a, s₁, hrun, heq⟩ := bind_cases x f s
  · rw [heq] at h
    cases h
    exact hx e (by rw [hrun])
  · rw [heq] at h
    exact hf a s₁ hrun e h

theorem Stops.bind {x : Procedure σ ε α} {f : α → Procedure σ ε β} (hx : Stops P x) (hf : ∀ a, Stops P (f a)) :
    Stops P (x >>= f) := fun s => Stops.bind_at (hx s) fun a s₁ _ => hf a s₁

end Stops
end Procedure
