import Mathlib

/-! # Loops that may raise

A loop whose body returns the next state and says whether it goes on. The number of passes is bounded
by a fuel argument: the bound of a `for`, or for a `while` the start of a measure that every pass
lowers, in which case the loop has ended by itself. -/

namespace OvcReplay.Lists

open List

universe u v

variable {ε : Type u} {σ : Type v}

/-- At most this many passes; the state after the last one. -/
def loop (body : σ → Except ε (σ × Bool)) : Nat → σ → Except ε σ
  | 0, s => .ok s
  | fuel + 1, s =>
    match body s with
    | .error e => .error e
    | .ok (s', true) => loop body fuel s'
    | .ok (s', false) => .ok s'

variable {body : σ → Except ε (σ × Bool)}

/-- **What every pass keeps, the loop keeps.** -/
theorem loop_invariant {I : σ → Prop} (hstep : ∀ s s' again, I s → body s = .ok (s', again) → I s')
    {fuel : Nat} {s t : σ} (hs : I s) (h : loop body fuel s = .ok t) : I t := by
  induction fuel generalizing s with
  | zero =>
    obtain rfl := Except.ok.inj h
    exact hs
  | succ fuel ih =>
    rw [loop] at h
    split at h
    · cases h
    · rename_i s' hbody
      exact ih (hstep s s' true hs hbody) h
    · rename_i s' hbody
      obtain rfl := Except.ok.inj h
      exact hstep s s' false hs hbody

/-! ## Pairs -/

variable {α : Type u}

/-- **A loop with enough fuel does not depend on it**: no pass that goes on can be the last one. -/
theorem loop_fuel {μ : σ → Nat} {I : σ → Prop}
    (hstep : ∀ s s', I s → body s = .ok (s', true) → I s' ∧ μ s' < μ s)
    (hzero : ∀ s, I s → μ s = 0 → body s = .ok (s, false)) {fuel : Nat} {s : σ} (hs : I s)
    (hfuel : μ s ≤ fuel) : loop body fuel s = loop body (μ s) s := by
  -- both loops make the same passes, as long as the measure bounds what is left
  have hboth : ∀ (m n : Nat) (s : σ), I s → μ s ≤ m → μ s ≤ n → loop body m s = loop body n s := by
    intro m
    induction m with
    | zero =>
      intro n s hs hm _
      have hbody := hzero s hs (by omega)
      cases n with
      | zero => rfl
      | succ n => rw [loop, loop, hbody]
    | succ m ih =>
      intro n s hs hm hn
      cases n with
      | zero =>
        have hbody := hzero s hs (by omega)
        rw [loop, loop, hbody]
      | succ n =>
        rw [loop, loop]
        split
        · rfl
        · rename_i s' hbody
          obtain ⟨hs', hlt⟩ := hstep s s' hs hbody
          exact ih n s' hs' (by omega) (by omega)
        · rfl
  exact hboth fuel (μ s) s hs hfuel le_rfl

/-- The pairs of an element and one that comes after it. -/
def pairs : List α → List (α × α)
  | [] => []
  | x :: xs => xs.map (fun y => (x, y)) ++ pairs xs

variable {xs : List α}

theorem mem_of_mem_pairs {p : α × α} (h : p ∈ pairs xs) : p.1 ∈ xs ∧ p.2 ∈ xs := by
  induction xs with
  | nil => simp [pairs] at h
  | cons x xs ih =>
    rcases mem_append.mp h with h | h
    · obtain ⟨y, hy, rfl⟩ := mem_map.mp h
      exact ⟨mem_cons_self, mem_cons_of_mem _ hy⟩
    · exact ⟨mem_cons_of_mem _ (ih h).1, mem_cons_of_mem _ (ih h).2⟩

/-- What relates every element to the later ones relates the elements of a pair. -/
theorem rel_of_mem_pairs {R : α → α → Prop} (hxs : xs.Pairwise R) {p : α × α}
    (h : p ∈ pairs xs) : R p.1 p.2 := by
  induction xs with
  | nil => simp [pairs] at h
  | cons x xs ih =>
    rw [pairwise_cons] at hxs
    rcases mem_append.mp h with h | h
    · obtain ⟨y, hy, rfl⟩ := mem_map.mp h
      exact hxs.1 y hy
    · exact ih hxs.2 h

/-- No pair comes twice, in either order. -/
theorem pairs_pairwise (hxs : xs.Nodup) : (pairs xs).Pairwise fun p q => p ≠ q ∧ p ≠ q.swap := by
  induction xs with
  | nil => exact .nil
  | cons x xs ih =>
    rw [nodup_cons] at hxs
    rw [pairs, pairwise_append]
    refine ⟨?_, ih hxs.2, ?_⟩
    · rw [pairwise_map]
      refine hxs.2.imp_of_mem fun {a b} ha _ hab => ⟨?_, ?_⟩
      · simpa using hab
      · rintro h
        obtain ⟨rfl, -⟩ := Prod.mk.inj h
        exact hxs.1 ‹_›
    · intro p hp q hq
      obtain ⟨y, hy, rfl⟩ := mem_map.mp hp
      obtain ⟨hfst, hsnd⟩ := mem_of_mem_pairs hq
      refine ⟨?_, ?_⟩
      · rintro rfl
        exact hxs.1 hfst
      · intro h
        obtain ⟨rfl, -⟩ := Prod.mk.inj h
        exact hxs.1 hsnd

/-! ## Taking out some elements -/

variable [BEq α] [LawfulBEq α]

/-- Distinct elements of a list, and the rest of the list. -/
theorem append_filter_notMem_perm {ys : List α} (hxs : xs.Nodup) (hsub : xs ⊆ ys)
    (hys : ys.Nodup) : (xs ++ ys.filter fun y => y ∉ xs).Perm ys := by
  have hnd : (xs ++ ys.filter fun y => y ∉ xs).Nodup := by
    rw [nodup_append]
    refine ⟨hxs, hys.filter _, ?_⟩
    intro a ha b hb heq
    subst heq
    simp [ha] at hb
  rw [perm_ext_iff_of_nodup hnd hys]
  intro a
  simp only [mem_append, mem_filter, decide_eq_true_eq]
  constructor
  · rintro (ha | ⟨ha, -⟩)
    · exact hsub ha
    · exact ha
  · intro ha
    by_cases hmem : a ∈ xs
    · exact .inl hmem
    · exact .inr ⟨ha, hmem⟩

/-- Taking out at least one element makes a list shorter. -/
theorem length_filter_notMem_lt {ys : List α} (hxs : xs.Nodup) (hsub : xs ⊆ ys)
    (hys : ys.Nodup) (hne : 0 < xs.length) : (ys.filter fun y => y ∉ xs).length < ys.length := by
  have h := (append_filter_notMem_perm hxs hsub hys).length_eq
  rw [length_append] at h
  omega

end OvcReplay.Lists
