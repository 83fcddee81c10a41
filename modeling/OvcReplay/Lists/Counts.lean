import Mathlib

/-! # Counts over lists

What is counted over a list whose elements are each replaced, and what is counted by several
predicates of which each element satisfies as many as of another. -/

namespace OvcReplay.Lists

open List

variable {β γ : Type}

/-- The weight of an element that is counted. -/
theorem countP_singleton_toNat (p : β → Bool) (x : β) : [x].countP p = (p x).toNat := by
  rw [countP_singleton]
  cases p x with
  | false => rfl
  | true => rfl

/-- **A count over replaced elements**: where each adds what its index counts, so does the list. -/
theorem countP_mapIdx {l : List β} {f : Nat → β → γ} {p : γ → Bool} {q : β → Bool} {b : Nat → Bool}
    (h : ∀ i x, l[i]? = some x → (p (f i x)).toNat = (q x).toNat + (b i).toNat) :
    (l.mapIdx f).countP p = l.countP q + (List.range l.length).countP b := by
  induction l using List.reverseRecOn with
  | nil => rfl
  | append_singleton l x ih =>
    have hlast := h l.length x List.getElem?_concat_length
    have hrest := ih fun i y hy => h i y (by
      rw [List.getElem?_append_left (List.getElem?_eq_some_iff.mp hy).1]
      exact hy)
    rw [mapIdx_concat, length_append, length_singleton, range_succ]
    simp only [countP_append, countP_singleton_toNat, hrest, hlast]
    omega

/-- A count over elements that are replaced by what is counted alike. -/
theorem countP_mapIdx_eq {l : List β} {f : Nat → β → γ} {p : γ → Bool} {q : β → Bool}
    (h : ∀ i x, l[i]? = some x → p (f i x) = q x) : (l.mapIdx f).countP p = l.countP q := by
  rw [countP_mapIdx (b := fun _ => false) (q := q) (fun i x hx => by rw [h i x hx]; rfl)]
  rw [countP_false]
  rfl

/-- A count over the indices of a list. -/
theorem countP_range_getElem (l : List β) (p : β → Bool) :
    ((List.range l.length).countP fun i => (l[i]?.map p).getD false) = l.countP p := by
  have h := countP_mapIdx (l := l) (f := fun _ x => x) (p := p) (q := fun _ => false)
    (b := fun i => (l[i]?.map p).getD false) (fun i x hx => by
      rw [hx]
      exact (Nat.zero_add _).symm)
  rw [countP_false, Function.const_apply, Nat.zero_add] at h
  rw [← h]
  congr 1
  exact ext_getElem? fun i => by rw [List.getElem?_mapIdx, Option.map_id']

/-- **Counts of a partition**: where each element is counted by as many of the predicates as by one,
the counts add up to the count of the one. -/
theorem sum_countP {l : List β} (ps : List (β → Bool)) {p : β → Bool}
    (h : ∀ x ∈ l, (ps.map fun q => (q x).toNat).sum = (p x).toNat) :
    (ps.map fun q => l.countP q).sum = l.countP p := by
  induction l with
  | nil =>
    simp only [countP_nil]
    exact sum_eq_zero fun n hn => by
      obtain ⟨_, _, rfl⟩ := mem_map.mp hn
      rfl
  | cons x l ih =>
    have hx := h x mem_cons_self
    have hl := ih fun y hy => h y (mem_cons_of_mem _ hy)
    have hcons : ∀ q : β → Bool, (x :: l).countP q = l.countP q + (q x).toNat := by
      intro q
      rw [countP_cons]
      cases q x with
      | false => rfl
      | true => rfl
    simp only [hcons, sum_map_add, hl, hx]

end OvcReplay.Lists
