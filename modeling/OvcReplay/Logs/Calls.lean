import Mathlib

/-! # Runs of calls that may raise

A machine that is given one call after the other. A call that raises leaves the state as it was, so
a run of any calls ends in a state. What every accepted call preserves is preserved by every run,
and what holds after a run and did not hold before it was brought about by one accepted call of the
run, after which it held to the end. -/

namespace OvcReplay.Logs

open List

universe u v w

variable {σ : Type u} {α : Type v} {ε : Type w} (step : σ → α → Except ε σ)

/-- The state after a call. -/
def attempt (s : σ) (call : α) : σ := (step s call).toOption.getD s

/-- The state after a run of calls. -/
def run (s : σ) (calls : List α) : σ := calls.foldl (attempt step) s

variable {step} {s s' : σ} {call : α}

theorem attempt_of_ok (h : step s call = .ok s') : attempt step s call = s' := by
  rw [attempt, h]
  rfl

theorem attempt_of_error {e : ε} (h : step s call = .error e) : attempt step s call = s := by
  rw [attempt, h]
  rfl

/-- A call is refused, or the state after it is the one that it returned. -/
theorem attempt_cases (step : σ → α → Except ε σ) (s : σ) (call : α) :
    (∃ e, step s call = .error e ∧ attempt step s call = s) ∨
      step s call = .ok (attempt step s call) := by
  cases h : step s call with
  | error e => exact .inl ⟨e, rfl, attempt_of_error h⟩
  | ok s' => exact .inr (congrArg Except.ok (attempt_of_ok h).symm)

/-- A call that changes the state was accepted. -/
theorem step_of_attempt_ne (h : attempt step s call ≠ s) :
    step s call = .ok (attempt step s call) := by
  rcases attempt_cases step s call with ⟨e, -, hsame⟩ | hok
  · exact absurd hsame h
  · exact hok

@[simp] theorem run_nil (s : σ) : run step s [] = s := rfl

@[simp] theorem run_cons (s : σ) (call : α) (calls : List α) :
    run step s (call :: calls) = run step (attempt step s call) calls := rfl

theorem run_append (s : σ) (calls calls' : List α) :
    run step s (calls ++ calls') = run step (run step s calls) calls' := foldl_append

theorem run_snoc (s : σ) (calls : List α) (call : α) :
    run step s (calls ++ [call]) = attempt step (run step s calls) call := by
  rw [run_append]
  rfl

/-! ## Invariants -/

variable {P : σ → Prop}

theorem attempt_inv (hstep : ∀ s', step s call = .ok s' → P s → P s') (h : P s) :
    P (attempt step s call) := by
  rcases attempt_cases step s call with ⟨e, -, hsame⟩ | hok
  · rwa [hsame]
  · exact hstep _ hok h

/-- **What every accepted call preserves, every run preserves.** -/
theorem run_inv (hstep : ∀ s call s', step s call = .ok s' → P s → P s') (h : P s)
    (calls : List α) : P (run step s calls) := by
  induction calls generalizing s with
  | nil => exact h
  | cons call calls ih => exact ih (attempt_inv (fun s' => hstep s call s') h)

/-- The same where only the calls of this run are known to preserve it, each in the state that the
calls before it lead to. -/
theorem run_inv_of_steps {calls : List α} (h : P s)
    (hstep : ∀ pre call s', pre ++ [call] <+: calls → step (run step s pre) call = .ok s' →
      P (run step s pre) → P s') :
    P (run step s calls) := by
  induction calls using reverseRecOn with
  | nil => exact h
  | append_singleton calls call ih =>
    rw [run_snoc]
    refine attempt_inv (fun s' hok => hstep calls call s' (prefix_refl _) hok) (ih ?_)
    intro pre last s' hpre
    exact hstep pre last s' (hpre.trans (prefix_append _ _))

/-- **What holds after a run and not before it** was brought about by one accepted call, and held
from there on. -/
theorem exists_step_of_run {calls : List α} (hs : ¬ P s) (h : P (run step s calls)) :
    ∃ pre call later, calls = pre ++ call :: later ∧ ¬ P (run step s pre) ∧
      step (run step s pre) call = .ok (run step s (pre ++ [call])) ∧
      ∀ mid, mid <+: later → P (run step s (pre ++ call :: mid)) := by
  induction calls using reverseRecOn with
  | nil => exact absurd h hs
  | append_singleton calls call ih =>
    by_cases hbef : P (run step s calls)
    · obtain ⟨pre, first, later, rfl, hpre, hok, hlater⟩ := ih hbef
      refine ⟨pre, first, later ++ [call], by simp, hpre, hok, ?_⟩
      intro mid hmid
      rcases prefix_concat_iff.mp hmid with rfl | hmid
      · rw [← cons_append, ← append_assoc]
        exact h
      · exact hlater mid hmid
    · refine ⟨calls, call, [], rfl, hbef, ?_, ?_⟩
      · rw [run_snoc] at h ⊢
        refine step_of_attempt_ne fun hsame => hbef ?_
        rwa [hsame] at h
      · intro mid hmid
        rw [prefix_nil.mp hmid]
        exact h

/-! ## Guarded runs

A run of a machine whose every call meets a guard in the state it is made in. What the calls that
meet the guard preserve is preserved by such a run; a run is guarded when and only when it can be
cut nowhere before a call that does not meet the guard. -/

section

variable {σ : Type u} {α : Type v} (next : σ → α → σ) (guard : σ → α → Prop)

/-- Every call meets the guard in the state it is made in. -/
def Guarded : σ → List α → Prop
  | _, [] => True
  | s, call :: calls => guard s call ∧ Guarded (next s call) calls

variable {next guard}

theorem guarded_append {s : σ} {calls later : List α} : Guarded next guard s (calls ++ later) ↔
      Guarded next guard s calls ∧ Guarded next guard (calls.foldl next s) later := by
  induction calls generalizing s with
  | nil => simp [Guarded]
  | cons call calls ih => simp only [cons_append, Guarded, ih, foldl_cons, and_assoc]

/-- **A run is guarded when each of its calls is.** -/
theorem guarded_iff {s : σ} {calls : List α} : Guarded next guard s calls ↔
      ∀ before call later, before ++ call :: later = calls → guard (before.foldl next s) call := by
  constructor
  · rintro h before call later rfl
    exact (guarded_append.mp h).2.1
  · intro h
    induction calls generalizing s with
    | nil => exact trivial
    | cons call calls ih =>
      refine ⟨h [] call calls rfl, ih ?_⟩
      intro before next' later heq
      exact h (call :: before) next' later (by rw [cons_append, heq])

/-- **What guarded calls keep, guarded runs keep.** -/
theorem Guarded.inv {I : σ → Prop} (hstep : ∀ s call, guard s call → I s → I (next s call))
    {s : σ} {calls : List α} (h : Guarded next guard s calls) (hs : I s) :
    I (calls.foldl next s) := by
  induction calls generalizing s with
  | nil => exact hs
  | cons call calls ih => exact ih h.2 (hstep s call h.1 hs)

end

end OvcReplay.Logs
