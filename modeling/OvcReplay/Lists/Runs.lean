import Mathlib

/-! # Maximal runs of a list

A scan splits a list into runs: some elements are *live*, and a live element either joins the live
element right before it or opens a run of its own. The scan names a run by its number and its first
element. Two live elements are in one run exactly when everything between them is live and every
element joins its predecessor. -/

namespace OvcReplay.Lists

open List

universe u

variable {α : Type u}

/-- A run: its number and its first element. -/
structure Run (α : Type u) where
  ordinal : Nat
  first : α

/-- The variables of the scan. -/
structure RunState (α : Type u) where
  /-- The live element just visited, with its run. -/
  last : Option (α × Run α)
  /-- The number of runs so far. -/
  count : Nat

namespace RunState

variable (live : α → Prop) (joins : α → α → Prop) [DecidablePred live] [DecidableRel joins]

/-- The scan before the first element. -/
def init : RunState α := ⟨none, 0⟩

/-- The run of the element just visited. -/
def run (s : RunState α) : Option (Run α) := s.last.map Prod.snd

/-- The run a live element opens. -/
def fresh (s : RunState α) (x : α) : RunState α := ⟨some (x, ⟨s.count + 1, x⟩), s.count + 1⟩

/-- One step of the scan. -/
def step (s : RunState α) (x : α) : RunState α :=
  if live x then
    match s.last with
    | some (p, run) => if joins p x then ⟨some (x, run), s.count⟩ else s.fresh x
    | none => s.fresh x
  else ⟨none, s.count⟩

/-- The scan after a list. -/
def after (s : RunState α) (xs : List α) : RunState α := xs.foldl (step live joins) s

theorem after_append_singleton (s : RunState α) (xs : List α) (x : α) :
    s.after live joins (xs ++ [x]) = (s.after live joins xs).step live joins x := by
  rw [after, after, foldl_append]
  rfl

/-- **What one step can do**: break, join the run before, or open a run. -/
theorem step_cases (s : RunState α) (x : α) : (¬ live x ∧ s.step live joins x = ⟨none, s.count⟩) ∨
    (∃ p run, live x ∧ s.last = some (p, run) ∧ joins p x ∧
      s.step live joins x = ⟨some (x, run), s.count⟩) ∨
    (live x ∧ (∀ p run, s.last = some (p, run) → ¬ joins p x) ∧
      s.step live joins x = s.fresh x) := by
  by_cases hx : live x
  · cases hlast : s.last with
    | none => exact .inr (.inr ⟨hx, by simp, by simp [step, hx, hlast]⟩)
    | some pr =>
      obtain ⟨p, run⟩ := pr
      by_cases hj : joins p x
      · exact .inr (.inl ⟨p, run, hx, rfl, hj, by simp [step, hx, hlast, hj]⟩)
      · refine .inr (.inr ⟨hx, ?_, by simp [step, hx, hlast, hj]⟩)
        rintro p' run' heq
        cases heq
        exact hj
  · exact .inl ⟨hx, by simp [step, hx]⟩

/-! ## Runs that are over -/

/-- The scan has left the run with this number. -/
def Left (s : RunState α) (n : Nat) : Prop :=
  n ≤ s.count ∧ ∀ p run, s.last = some (p, run) → run.ordinal ≠ n

variable {live joins}

variable {s : RunState α}

theorem Left.step {n : Nat} (h : s.Left n) (x : α) : (s.step live joins x).Left n := by
  rcases step_cases live joins s x with ⟨-, heq⟩ | ⟨p, run, -, hlast, -, heq⟩ | ⟨-, -, heq⟩
  · rw [heq]
    exact ⟨h.1, by simp⟩
  · rw [heq]
    refine ⟨h.1, ?_⟩
    rintro p' run' hlast'
    obtain ⟨-, rfl⟩ := Prod.mk.inj (Option.some.inj hlast')
    exact h.2 p run hlast
  · rw [heq]
    refine ⟨Nat.le_succ_of_le h.1, ?_⟩
    rintro p' run' hlast'
    obtain ⟨-, rfl⟩ := Prod.mk.inj (Option.some.inj hlast')
    exact Nat.ne_of_gt (Nat.lt_succ_of_le h.1)

/-- A run that was left is never entered again. -/
theorem Left.after {n : Nat} (h : s.Left n) (xs : List α) : (s.after live joins xs).Left n := by
  induction xs generalizing s with
  | nil => exact h
  | cons x xs ih => exact ih (h.step x)

theorem Left.run_ne {n : Nat} (h : s.Left n) {run : Run α} (hrun : s.run = some run) :
    run.ordinal ≠ n := by
  obtain ⟨⟨p, run'⟩, hlast, rfl⟩ := Option.map_eq_some_iff.mp hrun
  exact h.2 p run' hlast

/-! ## Runs -/

/-- The numbers given so far bound the current one. -/
def Bounded (s : RunState α) : Prop := ∀ p run, s.last = some (p, run) → run.ordinal ≤ s.count

theorem bounded_init : (init : RunState α).Bounded := by
  rintro p run ⟨⟩

theorem Bounded.step (h : s.Bounded) (x : α) : (s.step live joins x).Bounded := by
  rcases step_cases live joins s x with ⟨-, heq⟩ | ⟨p, run, -, hlast, -, heq⟩ | ⟨-, -, heq⟩
  · rw [heq]
    rintro p' run' ⟨⟩
  · rw [heq]
    rintro p' run' ⟨⟩
    exact h p run hlast
  · rw [heq]
    rintro p' run' ⟨⟩
    exact le_rfl

theorem Bounded.after (h : s.Bounded) (xs : List α) : (s.after live joins xs).Bounded := by
  induction xs generalizing s with
  | nil => exact h
  | cons x xs ih => exact ih (h.step x)

/-- The run was opened by one of `xs`, and there are no more runs than elements. -/
def OpenedIn (xs : List α) (s : RunState α) : Prop :=
  s.count ≤ xs.length ∧
    ∀ p run, s.last = some (p, run) → run.first ∈ xs ∧ 0 < run.ordinal ∧ run.ordinal ≤ xs.length

theorem OpenedIn.step {xs : List α} (h : OpenedIn xs s) (x : α) :
    OpenedIn (xs ++ [x]) (s.step live joins x) := by
  have hlen : (xs ++ [x]).length = xs.length + 1 := by simp
  rcases step_cases live joins s x with ⟨-, heq⟩ | ⟨p, run, -, hlast, -, heq⟩ | ⟨-, -, heq⟩
  · rw [heq]
    exact ⟨by rw [hlen]; exact Nat.le_succ_of_le h.1, by rintro p run ⟨⟩⟩
  · rw [heq]
    refine ⟨by rw [hlen]; exact Nat.le_succ_of_le h.1, ?_⟩
    rintro p' run' ⟨⟩
    obtain ⟨hmem, hpos, hle⟩ := h.2 p run hlast
    exact ⟨mem_append_left _ hmem, hpos, by rw [hlen]; exact Nat.le_succ_of_le hle⟩
  · rw [heq]
    refine ⟨by rw [hlen]; exact Nat.succ_le_succ h.1, ?_⟩
    rintro p' run' ⟨⟩
    exact ⟨by simp, Nat.succ_pos _, by rw [hlen]; exact Nat.succ_le_succ h.1⟩

/-- Every run was opened by an element scanned so far. -/
theorem openedIn_after (xs : List α) : OpenedIn xs ((init : RunState α).after live joins xs) := by
  induction xs using reverseRecOn with
  | nil => exact ⟨le_rfl, by rintro p run ⟨⟩⟩
  | append_singleton xs x ih =>
    rw [after_append_singleton]
    exact ih.step x

/-- The run of the last element was opened by an element scanned so far. -/
theorem opened_of_run {xs : List α} {run : Run α}
    (h : ((init : RunState α).after live joins xs).run = some run) :
    run.first ∈ xs ∧ 0 < run.ordinal ∧ run.ordinal ≤ xs.length := by
  obtain ⟨⟨p, run'⟩, hlast, rfl⟩ := Option.map_eq_some_iff.mp h
  exact (openedIn_after xs).2 p run' hlast

variable (joins) in
/-- A live element has a run. -/
theorem last_step_of_live (s : RunState α) {x : α} (hx : live x) :
    ∃ run, (s.step live joins x).last = some (x, run) := by
  rcases step_cases live joins s x with ⟨hn, -⟩ | ⟨p, run, -, -, -, heq⟩ | ⟨-, -, heq⟩
  · exact absurd hx hn
  · exact ⟨run, by rw [heq]⟩
  · exact ⟨_, by rw [heq]; rfl⟩

/-- An unbroken chain of live elements stays in the run. -/
theorem run_after_of_isChain {p : α} {run : Run α} (hlast : s.last = some (p, run)) {xs : List α}
    (hlive : ∀ z ∈ xs, live z) (hchain : IsChain joins (p :: xs)) :
    (s.after live joins xs).run = some run := by
  induction xs generalizing s p with
  | nil =>
    change s.run = some run
    rw [RunState.run, hlast]
    rfl
  | cons z xs ih =>
    obtain ⟨hj, hrest⟩ := isChain_cons_cons.mp hchain
    have hz := hlive z (by simp)
    refine ih (s := s.step live joins z) ?_ (fun w hw => hlive w (by simp [hw])) hrest
    simp [step, hz, hlast, hj]

/-- A later element of the run is reached by an unbroken chain of live elements. -/
theorem isChain_of_ordinal_eq (hs : s.Bounded) {p : α} {run run' : Run α}
    (hlast : s.last = some (p, run)) {xs : List α} (hrun : (s.after live joins xs).run = some run')
    (hord : run'.ordinal = run.ordinal) :
    (∀ z ∈ xs, live z) ∧ IsChain joins (p :: xs) := by
  induction xs generalizing s p with
  | nil => exact ⟨by simp, isChain_singleton p⟩
  | cons z xs ih =>
    have hle := hs p run hlast
    have hleft : ¬ (s.step live joins z).Left run.ordinal :=
      fun h => (h.after xs).run_ne hrun hord
    rcases step_cases live joins s z with ⟨-, heq⟩ | ⟨q, run', hz, hlast', hj, heq⟩ | ⟨-, -, heq⟩
    · refine absurd ?_ hleft
      rw [heq]
      exact ⟨hle, by simp⟩
    · cases Option.some.inj (hlast.symm.trans hlast')
      obtain ⟨hlive, hchain⟩ := ih (hs.step z) (by rw [heq]) hrun
      exact ⟨by simpa [hz] using hlive, isChain_cons_cons.mpr ⟨hj, hchain⟩⟩
    · refine absurd ?_ hleft
      rw [heq]
      refine ⟨Nat.le_succ_of_le hle, ?_⟩
      rintro p' run' ⟨⟩
      exact Nat.ne_of_gt (Nat.lt_succ_of_le hle)

variable (joins) in
/-- A live element is in a run. -/
theorem exists_run_of_live (pre : List α) {x : α} (hx : live x) :
    ∃ run, ((init : RunState α).after live joins (pre ++ [x])).run = some run := by
  obtain ⟨run, hlast⟩ := last_step_of_live joins (init.after live joins pre) hx
  rw [after_append_singleton, RunState.run, hlast]
  exact ⟨run, rfl⟩

/-- An element that is not live is in no run. -/
theorem run_of_not_live (pre : List α) {x : α} (hx : ¬ live x) :
    ((init : RunState α).after live joins (pre ++ [x])).run = none := by
  rw [after_append_singleton, step, if_neg hx]
  rfl

/-- The scan of a list whose last element is live, and of what follows. -/
theorem scanned_live {pre xs : List α} {x : α} (hx : live x) {run run' : Run α}
    (hrun : ((init : RunState α).after live joins (pre ++ [x])).run = some run)
    (hrun' : ((init : RunState α).after live joins (pre ++ [x] ++ xs)).run = some run') :
    ∃ s : RunState α, s.Bounded ∧ s.last = some (x, run) ∧
      (s.after live joins xs).run = some run' := by
  refine ⟨init.after live joins (pre ++ [x]), bounded_init.after _, ?_, ?_⟩
  · obtain ⟨r, hlast⟩ := last_step_of_live joins (init.after live joins pre) hx
    rw [← after_append_singleton] at hlast
    rw [RunState.run, hlast] at hrun
    rw [hlast, ← Option.some.inj hrun]
  · rw [after, after, ← foldl_append]
    exact hrun'

section Scanned

variable {pre xs : List α} {x : α} (hx : live x) {run run' : Run α}
  (hrun : ((init : RunState α).after live joins (pre ++ [x])).run = some run)
  (hrun' : ((init : RunState α).after live joins (pre ++ [x] ++ xs)).run = some run')

include hx hrun hrun'

/-- **A later element is in the run of a live one iff every element up to it is live and joins its
predecessor.** -/
theorem ordinal_eq_iff :
    run'.ordinal = run.ordinal ↔ (∀ z ∈ xs, live z) ∧ IsChain joins (x :: xs) := by
  obtain ⟨s, hs, hlast, hafter⟩ := scanned_live hx hrun hrun'
  constructor
  · exact isChain_of_ordinal_eq hs hlast hafter
  · rintro ⟨hlive, hchain⟩
    have h := run_after_of_isChain hlast hlive hchain
    rw [Option.some.inj (hafter.symm.trans h)]

/-- Runs of one number are one run. -/
theorem run_eq_of_ordinal_eq (hord : run'.ordinal = run.ordinal) : run' = run := by
  obtain ⟨s, hs, hlast, hafter⟩ := scanned_live hx hrun hrun'
  obtain ⟨hlive, hchain⟩ := isChain_of_ordinal_eq hs hlast hafter hord
  exact Option.some.inj (hafter.symm.trans (run_after_of_isChain hlast hlive hchain))

end Scanned

end RunState

end OvcReplay.Lists
