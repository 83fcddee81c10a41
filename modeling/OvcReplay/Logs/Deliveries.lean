import Mathlib

/-! # Deliveries

A receiver that remembers the ids of what it was given and ignores what it was given before. Whatever
is delivered again, and wherever the receiver is stopped and restored, it ends as if every id had been
delivered once. -/

namespace OvcReplay.Logs

open List

universe u v w

variable {σ : Type u} {α : Type u} {ι : Type v} {ε : Type w} [DecidableEq ι]

/-- The first delivery of every id. -/
def firsts (idOf : α → ι) : List α → List α
  | [] => []
  | x :: xs => x :: (firsts idOf xs).filter fun y => idOf y ≠ idOf x

theorem firsts_sublist (idOf : α → ι) (xs : List α) : (firsts idOf xs).Sublist xs := by
  induction xs with
  | nil => exact List.Sublist.refl _
  | cons x xs ih =>
    rw [firsts]
    exact (filter_sublist.trans ih).cons_cons x

theorem mem_ids_firsts {idOf : α → ι} {xs : List α} {i : ι} :
    i ∈ (firsts idOf xs).map idOf ↔ i ∈ xs.map idOf := by
  induction xs with
  | nil => rfl
  | cons x xs ih =>
    rw [firsts, map_cons, map_cons, mem_cons, mem_cons, ← ih]
    by_cases hi : i = idOf x
    · simp [hi]
    · rw [or_iff_right hi, or_iff_right hi]
      constructor
      · intro h
        obtain ⟨y, hy, rfl⟩ := mem_map.mp h
        exact mem_map_of_mem (mem_filter.mp hy).1
      · intro h
        obtain ⟨y, hy, rfl⟩ := mem_map.mp h
        exact mem_map_of_mem (mem_filter.mpr ⟨hy, by simpa using hi⟩)

/-- The ids of the first deliveries are distinct. -/
theorem nodup_ids_firsts (idOf : α → ι) (xs : List α) : ((firsts idOf xs).map idOf).Nodup := by
  induction xs with
  | nil => exact nodup_nil
  | cons x xs ih =>
    rw [firsts, map_cons, nodup_cons]
    constructor
    · intro h
      obtain ⟨y, hy, heq⟩ := mem_map.mp h
      have hne := (mem_filter.mp hy).2
      simp [heq] at hne
    · exact ih.sublist (filter_sublist.map idOf)

/-- A delivery after others counts when its id is new. -/
theorem firsts_snoc (idOf : α → ι) (xs : List α) (x : α) : firsts idOf (xs ++ [x]) =
      firsts idOf xs ++ if idOf x ∈ xs.map idOf then [] else [x] := by
  induction xs with
  | nil => rfl
  | cons y xs ih =>
    rw [cons_append, firsts, ih, firsts, filter_append, cons_append,
      map_cons]
    by_cases hxy : idOf x = idOf y
    · rw [if_pos (mem_cons.mpr (.inl hxy))]
      by_cases hmem : idOf x ∈ xs.map idOf
      · rw [if_pos hmem, filter_nil]
      · rw [if_neg hmem, filter_cons_of_neg (by simpa using hxy), filter_nil]
    · by_cases hmem : idOf x ∈ xs.map idOf
      · rw [if_pos hmem, if_pos (mem_cons.mpr (.inr hmem)), filter_nil]
      · have hnew : idOf x ∉ idOf y :: xs.map idOf :=
          mt mem_cons.mp (not_or.mpr ⟨hxy, hmem⟩)
        rw [if_neg hmem, if_neg hnew, filter_cons_of_pos (by simpa using hxy),
          filter_nil]

/-- **A receiver of deliveries**: what was seen is ignored, and what is taken is seen. -/
structure Receives (step : σ → α → Except ε σ) (idOf : α → ι) (seen : σ → List ι) : Prop where
  ignores : ∀ s x, idOf x ∈ seen s → step s x = .ok s
  records : ∀ s x s', step s x = .ok s' → ∀ i, i ∈ seen s' ↔ i ∈ seen s ∨ i = idOf x

namespace Receives

variable {step : σ → α → Except ε σ} {idOf : α → ι} {seen : σ → List ι}
  (h : Receives step idOf seen)

include h

/-- What was seen may be left out. -/
theorem foldlM_filter {i : ι} {s : σ} (hi : i ∈ seen s) (xs : List α) :
    (xs.filter fun x => idOf x ≠ i).foldlM step s = xs.foldlM step s := by
  induction xs generalizing s with
  | nil => rfl
  | cons x xs ih =>
    rw [foldlM_cons]
    by_cases hx : idOf x = i
    · rw [filter_cons_of_neg (by simpa using hx), h.ignores s x (hx ▸ hi)]
      exact ih hi
    · rw [filter_cons_of_pos (by simpa using hx), foldlM_cons]
      cases hstep : step s x with
      | error e => rfl
      | ok s' => exact ih ((h.records s x s' hstep i).mpr (.inl hi))

/-- **Redeliveries change nothing.** -/
theorem foldlM_firsts (xs : List α) (s : σ) :
    (firsts idOf xs).foldlM step s = xs.foldlM step s := by
  induction xs generalizing s with
  | nil => rfl
  | cons x xs ih =>
    rw [firsts, foldlM_cons, foldlM_cons]
    cases hstep : step s x with
    | error e => rfl
    | ok s' =>
      have hseen : idOf x ∈ seen s' := (h.records s x s' hstep _).mpr (.inr rfl)
      exact (h.foldlM_filter hseen _).trans (ih s')

omit [DecidableEq ι] in
/-- What a run has seen. -/
theorem mem_seen_foldlM {xs : List α} {s s' : σ} (hrun : xs.foldlM step s = .ok s') {i : ι} :
    i ∈ seen s' ↔ i ∈ seen s ∨ i ∈ xs.map idOf := by
  induction xs generalizing s with
  | nil =>
    rw [foldlM_nil] at hrun
    cases hrun
    simp
  | cons x xs ih =>
    rw [foldlM_cons] at hrun
    cases hstep : step s x with
    | error e =>
      rw [hstep] at hrun
      cases hrun
    | ok next =>
      rw [hstep] at hrun
      rw [ih hrun, h.records s x next hstep, map_cons, mem_cons, or_assoc]

end Receives

/-! ## Restarts -/

variable {step : σ → α → Except ε σ} {restore : σ → Except ε σ}

/-- A run in parts, after each of which the receiver is restored. -/
def restarting (step : σ → α → Except ε σ) (restore : σ → Except ε σ) (parts : List (List α))
    (s : σ) : Except ε σ :=
  parts.foldlM (fun s part => part.foldlM step s >>= restore) s

/-- **Restoring what is restored exactly leaves a run as it is.** -/
theorem restarting_ok (hrestore : ∀ s s', restore s = .ok s' → s' = s)
    {parts : List (List α)} {s s' : σ} (h : restarting step restore parts s = .ok s') :
    parts.flatten.foldlM step s = .ok s' := by
  induction parts generalizing s with
  | nil => exact h
  | cons part parts ih =>
    rw [restarting, foldlM_cons] at h
    rw [flatten_cons, foldlM_append]
    cases hpart : part.foldlM step s with
    | error e =>
      rw [hpart] at h
      cases h
    | ok next =>
      rw [hpart] at h
      cases hnext : restore next with
      | error e =>
        have hbind : (.ok next >>= restore) = .error e := hnext
        rw [hbind] at h
        cases h
      | ok restored =>
        have hbind : (.ok next >>= restore) = .ok restored := hnext
        rw [hbind] at h
        rw [hrestore next restored hnext] at h
        exact ih h

/-- Where every state of the run can be restored, the restarts are not seen at all. -/
theorem restarting_eq {parts : List (List α)} {s : σ}
    (hrestore : ∀ pre s', pre <+: parts.flatten → pre.foldlM step s = .ok s' →
      restore s' = .ok s') :
    restarting step restore parts s = parts.flatten.foldlM step s := by
  induction parts generalizing s with
  | nil => rfl
  | cons part parts ih =>
    rw [restarting, foldlM_cons, flatten_cons, foldlM_append]
    cases hpart : part.foldlM step s with
    | error e => rfl
    | ok next =>
      have hnext : (.ok next >>= restore) = .ok next :=
        hrestore part next (by rw [flatten_cons]; exact prefix_append _ _) hpart
      rw [hnext]
      refine ih fun pre s' hpre hrun => hrestore (part ++ pre) s' ?_ ?_
      · rw [flatten_cons]
        exact (prefix_append_right_inj part).mpr hpre
      · rw [foldlM_append, hpart]
        exact hrun

end OvcReplay.Logs
