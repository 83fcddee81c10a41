import Mathlib

/-! # Computations that raise

A method of a Python object reads and writes the object and may raise, and what it wrote before it
raised stays written. `Raising ε σ α` is such a method over the state `σ`. `Raising.ends` is its
precondition transformer with one postcondition for a return and one for a raise; `Raising.after`
runs a list of calls whose exceptions the caller catches. -/

namespace OvcReplay.Python

universe u v w

/-- A method over the state `σ` that raises `ε`, keeping the state it had reached. -/
abbrev Raising (ε σ α : Type) : Type := EStateM ε σ α

namespace Raising

variable {ε σ τ α β : Type}

/-- Raise `e`. -/
def raise (e : ε) : Raising ε σ α := EStateM.throw e

/-- `if not condition: raise e`. -/
def require (condition : Prop) [Decidable condition] (e : ε) : Raising ε σ Unit :=
  if condition then pure () else raise e

/-- A pure call that may raise. -/
def lift : Except ε α → Raising ε σ α
  | .ok a => pure a
  | .error e => raise e

/-- A method of the part `part s` of the state; `put` writes the part back. -/
def zoom (part : σ → τ) (put : σ → τ → σ) (m : Raising ε τ α) : Raising ε σ α := fun s =>
  match m (part s) with
  | .ok a t => .ok a (put s t)
  | .error e t => .error e (put s t)

/-! ## Outcomes -/

/-- The state a call leaves, whether it returned or raised. -/
def left : EStateM.Result ε σ α → σ
  | .ok _ s => s
  | .error _ s => s

/-- **`m.ends R E s`**: from `s`, `m` returns into `R` or raises into `E`. -/
def ends (m : Raising ε σ α) (R : α → σ → Prop) (E : ε → σ → Prop) (s : σ) : Prop :=
  match m s with
  | .ok a s' => R a s'
  | .error e s' => E e s'

variable {R : α → σ → Prop} {E : ε → σ → Prop} {s : σ}

variable {a : α}

@[simp] theorem ends_pure : ends (pure a : Raising ε σ α) R E s ↔ R a s := Iff.rfl

variable {e : ε}

@[simp] theorem ends_raise : ends (raise e : Raising ε σ α) R E s ↔ E e s := Iff.rfl

@[simp] theorem ends_get {R : σ → σ → Prop} : ends (get : Raising ε σ σ) R E s ↔ R s s := Iff.rfl

@[simp] theorem ends_modify {f : σ → σ} {R : PUnit → σ → Prop} :
    ends (modify f : Raising ε σ PUnit) R E s ↔ R ⟨⟩ (f s) := Iff.rfl

variable {m : Raising ε σ α} {f : α → Raising ε σ β}

/-- The postcondition of the first part is the precondition of the second. -/
@[simp] theorem ends_bind {R : β → σ → Prop} :
    ends (m >>= f) R E s ↔ ends m (fun a s' => ends (f a) R E s') E s := by
  change (match EStateM.bind m f s with | .ok a s' => R a s' | .error e s' => E e s') ↔ _
  unfold EStateM.bind ends
  cases m s <;> rfl

variable {condition : Prop}

@[simp] theorem ends_require [Decidable condition] {R : Unit → σ → Prop} :
    ends (require condition e : Raising ε σ Unit) R E s ↔
      (condition → R () s) ∧ (¬ condition → E e s) := by
  by_cases h : condition <;> simp [require, h]

theorem ends_lift {r : Except ε α} : ends (lift r : Raising ε σ α) R E s ↔
      (∀ a, r = .ok a → R a s) ∧ (∀ e, r = .error e → E e s) := by
  cases r <;> simp [lift]

@[simp] theorem ends_lift_ok : ends (lift (.ok a) : Raising ε σ α) R E s ↔ R a s := Iff.rfl

@[simp] theorem ends_lift_error : ends (lift (.error e) : Raising ε σ α) R E s ↔ E e s := Iff.rfl

@[simp] theorem ends_ite [Decidable condition] {m n : Raising ε σ α} :
    ends (if condition then m else n) R E s ↔
      (condition → ends m R E s) ∧ (¬ condition → ends n R E s) := by
  by_cases h : condition <;> simp [h]

/-- A method of a part sees the part and leaves the rest. -/
@[simp] theorem ends_zoom {part : σ → τ} {put : σ → τ → σ} {m : Raising ε τ α} :
    ends (zoom part put m) R E s ↔
      ends m (fun a t => R a (put s t)) (fun e t => E e (put s t)) (part s) := by
  unfold ends zoom
  cases m (part s) <;> rfl

/-- Consequence. -/
theorem ends_mono {R' : α → σ → Prop} {E' : ε → σ → Prop} (hR : ∀ a s', R a s' → R' a s')
    (hE : ∀ e s', E e s' → E' e s') (h : ends m R E s) :
    ends m R' E' s := by
  unfold ends at *
  cases hm : m s with
  | ok a s' => exact hR a s' (by simpa [hm] using h)
  | error e s' => exact hE e s' (by simpa [hm] using h)

/-- A condition on the state left is one on either outcome. -/
theorem ends_left {I : σ → Prop} : ends m (fun _ => I) (fun _ => I) s ↔ I (left (m s)) := by
  unfold ends left
  cases m s <;> rfl

/-! ## Evaluation -/

theorem bind_apply :
    (m >>= f) s = match m s with | .ok a s' => f a s' | .error e s' => .error e s' := by
  change EStateM.bind m f s = _
  unfold EStateM.bind
  cases m s <;> rfl

variable {s' : σ}

theorem bind_of_ok (h : m s = .ok a s') : (m >>= f) s = f a s' := by
  rw [bind_apply, h]

theorem bind_of_error (h : m s = .error e s') : (m >>= f) s = .error e s' := by
  rw [bind_apply, h]

theorem ends_of_ok (h : m s = .ok a s') : ends m R E s ↔ R a s' := by
  unfold ends
  rw [h]

theorem ends_of_error (h : m s = .error e s') : ends m R E s ↔ E e s' := by
  unfold ends
  rw [h]

/-! ## Atomicity -/

/-- **`m` is atomic at `s` for what `view` shows**: if it raises, the view is as before. -/
def AtomicAt (view : σ → τ) (m : Raising ε σ α) (s : σ) : Prop :=
  ends m (fun _ _ => True) (fun _ s' => view s' = view s) s

theorem atomicAt_iff {view : σ → τ} {s : σ} :
    AtomicAt view m s ↔ ∀ e s', m s = .error e s' → view s' = view s := by
  unfold AtomicAt ends
  cases m s <;> simp

instance [DecidableEq τ] (view : σ → τ) (m : Raising ε σ α) (s : σ) :
    Decidable (AtomicAt view m s) :=
  match h : m s with
  | .ok a s' => .isTrue (by simp [AtomicAt, ends, h])
  | .error e s' => decidable_of_iff (view s' = view s) (by simp [AtomicAt, ends, h])

/-! ## Runs -/

section Runs

variable {Call : Type} (step : Call → Raising ε σ α)

/-- The state after a list of calls, each of which may raise. -/
def after (calls : List Call) (s : σ) : σ :=
  calls.foldl (fun s call => left (step call s)) s

@[simp] theorem after_nil (s : σ) : after step [] s = s := rfl

@[simp] theorem after_cons (call : Call) (calls : List Call) (s : σ) :
    after step (call :: calls) s = after step calls (left (step call s)) := rfl

theorem after_append (calls calls' : List Call) (s : σ) :
    after step (calls ++ calls') s = after step calls' (after step calls s) := by
  simp [after]

variable {step}

/-- **What every call keeps, every run keeps.** -/
theorem after_invariant {I : σ → Prop}
    (hstep : ∀ call s, I s → ends (step call) (fun _ => I) (fun _ => I) s)
    (calls : List Call) {s : σ} (hs : I s) : I (after step calls s) := by
  induction calls generalizing s with
  | nil => exact hs
  | cons call calls ih =>
    rw [after_cons]
    exact ih (ends_left.mp (hstep call s hs))

/-- A reflexive and transitive relation that every call keeps relates the ends of a run. -/
theorem after_relation {Rel : σ → σ → Prop} (hrefl : ∀ s, Rel s s)
    (htrans : ∀ {a b c}, Rel a b → Rel b c → Rel a c)
    (hstep : ∀ call s, ends (step call) (fun _ => Rel s) (fun _ => Rel s) s)
    (calls : List Call) (s : σ) : Rel s (after step calls s) := by
  induction calls generalizing s with
  | nil => exact hrefl s
  | cons call calls ih =>
    rw [after_cons]
    exact htrans (ends_left.mp (hstep call s)) (ih _)

/-- **What a run shows at its end and did not show at its start, one of its calls brought about.**
-/
theorem exists_call_of_after [DecidableEq τ] {view : σ → τ} {b : τ} {calls : List Call} {s : σ}
    (hstart : view s ≠ b) (hend : view (after step calls s) = b) :
    ∃ pre call post, calls = pre ++ call :: post ∧ view (after step pre s) ≠ b ∧
      view (left (step call (after step pre s))) = b := by
  induction calls generalizing s with
  | nil => exact absurd hend hstart
  | cons call calls ih =>
    by_cases h : view (left (step call s)) = b
    · exact ⟨[], call, calls, rfl, hstart, h⟩
    · obtain ⟨pre, c, post, hcalls, hpre, hpost⟩ := ih h hend
      exact ⟨call :: pre, c, post, by rw [hcalls, List.cons_append], hpre, hpost⟩

end Runs

end Raising

/-! ## What a method leaves behind

A condition on the state that a method leaves, whether it returns or raises. The rules follow the
statements of a method: a check or a pure call that raises leaves the state as it is. -/

section

namespace Raising

variable {ε σ τ α β : Type} {s : σ} {Q : σ → Prop}

/-- **The method leaves a state in `Q`.** -/
abbrev Always (m : Raising ε σ α) (Q : σ → Prop) (s : σ) : Prop :=
  ends m (fun _ => Q) (fun _ => Q) s

variable {m : Raising ε σ α}

/-- What holds of every outcome holds of the outcome. -/
theorem ends_of_forall {R : α → σ → Prop} {E : ε → σ → Prop}
    (hR : ∀ a s', R a s') (hE : ∀ e s', E e s') : ends m R E s := by
  unfold ends
  cases m s with
  | ok a s' => exact hR a s'
  | error e s' => exact hE e s'

/-- A pure call writes nothing. -/
theorem always_lift_bind {r : Except ε α} {f : α → Raising ε σ β} (hs : Q s)
    (h : ∀ a, r = .ok a → Always (f a) Q s) : Always (lift r >>= f) Q s := by
  simp only [Always, ends_bind, ends_lift]
  exact ⟨h, fun _ _ => hs⟩

/-- A check writes nothing. -/
theorem always_require_bind {condition : Prop} [Decidable condition] {e : ε}
    {f : Unit → Raising ε σ β} (hs : Q s) (h : condition → Always (f ()) Q s) :
    Always (require condition e >>= f) Q s := by
  simp only [Always, ends_bind, ends_require]
  exact ⟨h, fun _ => hs⟩

theorem always_get_bind {f : σ → Raising ε σ β} (h : Always (f s) Q s) :
    Always (get >>= f) Q s := by
  simpa only [Always, ends_bind, ends_get] using h

theorem always_modify_bind {g : σ → σ} {f : PUnit → Raising ε σ β}
    (h : Always (f ⟨⟩) Q (g s)) : Always (modify g >>= f) Q s := by
  simpa only [Always, ends_bind, ends_modify] using h

theorem always_pure {a : α} (h : Q s) : Always (pure a : Raising ε σ α) Q s :=
  h

/-- What is done with the value of a method does not change what it leaves. -/
theorem always_map {f : α → β} (h : Always m Q s) : Always (do return f (← m)) Q s := by
  simp only [Always, ends_bind, ends_pure]
  exact h

/-- A method that always leaves one state leaves it. -/
theorem left_eq_of_always {s' : σ} (h : Always m (fun s₁ => s₁ = s') s) : left (m s) = s' :=
  ends_left.mp h

end Raising

end

end OvcReplay.Python
