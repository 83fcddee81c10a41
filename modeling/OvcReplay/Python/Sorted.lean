import Mathlib

/-! # `sorted`

Python's `sorted(xs, key=…)` is a stable sort by a key; `List.insertionSort` is the stable sort of
the library. The lemmas say what a sort by a key that separates the elements determines. -/

namespace OvcReplay.Python

open List

universe u v

variable {α : Type u} {κ : Type v} [LinearOrder κ]

/-- `sorted(xs, key=key)`. -/
def sortedBy (key : α → κ) (xs : List α) : List α :=
  xs.insertionSort (fun a b => key a ≤ key b)

/-- `sorted(set(xs))`. -/
def sortedSet (xs : List κ) : List κ := sortedBy id xs.dedup

@[simp] theorem sortedBy_nil (key : α → κ) : sortedBy key [] = [] := rfl

theorem sortedBy_perm (key : α → κ) (xs : List α) : (sortedBy key xs).Perm xs :=
  perm_insertionSort _ xs

variable {key : α → κ}

@[simp] theorem mem_sortedBy {xs : List α} {x : α} : x ∈ sortedBy key xs ↔ x ∈ xs :=
  (sortedBy_perm key xs).mem_iff

@[simp] theorem length_sortedBy (key : α → κ) (xs : List α) :
    (sortedBy key xs).length = xs.length :=
  (sortedBy_perm key xs).length_eq

/-- The result is sorted by the key. -/
theorem sortedBy_pairwise (key : α → κ) (xs : List α) :
    (sortedBy key xs).Pairwise (fun a b => key a ≤ key b) := by
  have : IsTrans α (fun a b => key a ≤ key b) := ⟨fun _ _ _ => le_trans⟩
  have : Std.Total (fun a b : α => key a ≤ key b) := ⟨fun a b => le_total (key a) (key b)⟩
  exact pairwise_insertionSort _ xs

/-- A list already sorted by the key is left as it is. -/
theorem sortedBy_eq_self {xs : List α} (h : xs.Pairwise (fun a b => key a ≤ key b)) :
    sortedBy key xs = xs :=
  Pairwise.insertionSort_eq h

@[simp] theorem sortedBy_singleton (key : α → κ) (x : α) : sortedBy key [x] = [x] := rfl

variable {xs ys : List α}

/-- Two sorted lists with the same elements are equal when the key separates these elements. -/
theorem eq_of_perm_of_pairwise {f : α → κ} (hinj : ∀ a ∈ xs, ∀ b ∈ xs, f a = f b → a = b)
    (hp : xs.Perm ys) (hx : xs.Pairwise (fun a b => f a ≤ f b))
    (hy : ys.Pairwise (fun a b => f a ≤ f b)) :
    xs = ys := by
  have hanti : ∀ a b, a ∈ xs → b ∈ ys → f a ≤ f b → f b ≤ f a → a = b := by
    intro a b ha hb hab hba
    exact hinj a ha b (hp.mem_iff.mpr hb) (le_antisymm hab hba)
  exact Perm.eq_of_pairwise hanti hx hy hp

/-- **A sort by a separating key does not depend on the arrival order.** -/
theorem sortedBy_eq_of_perm (hinj : ∀ a ∈ xs, ∀ b ∈ xs, key a = key b → a = b) (hp : xs.Perm ys) :
    sortedBy key xs = sortedBy key ys := by
  refine eq_of_perm_of_pairwise ?_ ?_ (sortedBy_pairwise key xs) (sortedBy_pairwise key ys)
  · intro a ha b hb
    exact hinj a (mem_sortedBy.mp ha) b (mem_sortedBy.mp hb)
  · exact (sortedBy_perm key xs).trans (hp.trans (sortedBy_perm key ys).symm)

/-- Sorting commutes with a map that keeps the key. -/
theorem sortedBy_map {β : Type*} (f : α → β) (key : β → κ) (xs : List α) :
    sortedBy key (xs.map f) = (sortedBy (fun a => key (f a)) xs).map f := by
  rw [sortedBy, sortedBy, map_insertionSort (r := fun a b => key (f a) ≤ key (f b))
    (s := fun a b => key a ≤ key b)]
  intro a _ b _
  exact Iff.rfl

/-- A list whose first part precedes its second is sorted part by part. -/
theorem sortedBy_append (h : ∀ x ∈ xs, ∀ y ∈ ys, key x ≤ key y) :
    sortedBy key (xs ++ ys) = sortedBy key xs ++ sortedBy key ys := by
  have hinsert : ∀ (x : α) (as bs : List α), (∀ b ∈ bs, key x ≤ key b) →
      (as ++ bs).orderedInsert (fun a b => key a ≤ key b) x =
        as.orderedInsert (fun a b => key a ≤ key b) x ++ bs := by
    intro x as bs hbs
    induction as with
    | nil =>
      cases bs with
      | nil => rfl
      | cons b bs => simp [orderedInsert, hbs b (by simp)]
    | cons a as ih =>
      by_cases hxa : key x ≤ key a
      · simp [orderedInsert, hxa]
      · simp [orderedInsert, hxa, ih]
  induction xs with
  | nil => rfl
  | cons x xs ih =>
    have htail := ih fun y hy => h y (mem_cons_of_mem _ hy)
    simp only [sortedBy, cons_append, insertionSort_cons] at htail ⊢
    rw [htail, hinsert]
    intro y hy
    exact h x (by simp) y (mem_sortedBy.mp hy)

theorem filter_orderedInsert {p : α → Bool} (x : α) {xs : List α}
    (hxs : xs.Pairwise (fun a b => key a ≤ key b)) :
    (xs.orderedInsert (fun a b => key a ≤ key b) x).filter p =
      if p x then (xs.filter p).orderedInsert (fun a b => key a ≤ key b) x else xs.filter p := by
  induction xs with
  | nil => by_cases hx : p x <;> simp [hx]
  | cons y xs ih =>
    obtain ⟨hy, hxs⟩ := pairwise_cons.mp hxs
    have ih := ih hxs
    by_cases hle : key x ≤ key y
    · have hhead : ∀ z ∈ (y :: xs).filter p, key x ≤ key z := by
        intro z hz
        rcases mem_cons.mp (mem_of_mem_filter hz) with rfl | hz
        · exact hle
        · exact hle.trans (hy z hz)
      rw [orderedInsert_cons, if_pos hle]
      by_cases hx : p x
      · rw [if_pos hx, filter_cons_of_pos hx]
        cases hrest : (y :: xs).filter p with
        | nil => rfl
        | cons z zs =>
          have hz := hhead z (by rw [hrest]; exact mem_cons_self ..)
          rw [orderedInsert_cons, if_pos hz]
      · rw [if_neg hx, filter_cons_of_neg hx]
    · rw [orderedInsert_cons, if_neg hle]
      by_cases hp : p y
      · rw [filter_cons_of_pos hp, ih, filter_cons_of_pos hp]
        by_cases hx : p x
        · rw [if_pos hx, if_pos hx, orderedInsert_cons, if_neg hle]
        · rw [if_neg hx, if_neg hx]
      · rw [filter_cons_of_neg hp, ih, filter_cons_of_neg hp]

/-- **A stable sort and a filter commute.** -/
theorem filter_sortedBy_comm (p : α → Bool) (xs : List α) :
    (sortedBy key xs).filter p = sortedBy key (xs.filter p) := by
  induction xs with
  | nil => rfl
  | cons x xs ih =>
    have hstep : sortedBy key (x :: xs) =
        (sortedBy key xs).orderedInsert (fun a b => key a ≤ key b) x := rfl
    rw [hstep, filter_orderedInsert x (sortedBy_pairwise key xs), ih]
    by_cases hx : p x
    · rw [if_pos hx, filter_cons_of_pos hx]
      rfl
    · rw [if_neg hx, filter_cons_of_neg hx]

/-- The elements with a property keep their order when they are sorted already. -/
theorem filter_sortedBy {p : α → Bool} (h : xs.filter p = ys)
    (hys : ys.Pairwise (fun a b => key a ≤ key b)) : (sortedBy key xs).filter p = ys := by
  rw [filter_sortedBy_comm, h, sortedBy_eq_self hys]

/-- A sorted list is its part below a bound and the rest. -/
theorem filter_append_filter_of_pairwise {xs : List α} (cut : κ)
    (hxs : xs.Pairwise (fun a b => key a ≤ key b)) :
    (xs.filter fun x => key x < cut) ++ (xs.filter fun x => ¬ key x < cut) = xs := by
  induction xs with
  | nil => rfl
  | cons x xs ih =>
    obtain ⟨hx, hxs⟩ := pairwise_cons.mp hxs
    by_cases hlt : key x < cut
    · simpa [hlt] using ih hxs
    · have hnone : xs.filter (fun y => key y < cut) = [] := by
        refine filter_eq_nil_iff.mpr fun y hy => ?_
        simpa using (not_lt.mp hlt).trans (hx y hy)
      have hall : xs.filter (fun y => ¬ key y < cut) = xs := by
        refine filter_eq_self.mpr fun y hy => ?_
        simpa using (not_lt.mp hlt).trans (hx y hy)
      rw [filter_cons_of_neg (by simpa using hlt), hnone,
        filter_cons_of_pos (by simpa using hlt), hall]
      rfl

/-- **What lies below a bound is sorted on its own, in front.** -/
theorem sortedBy_split (key : α → κ) (cut : κ) (xs : List α) :
    sortedBy key xs = sortedBy key (xs.filter fun x => key x < cut) ++
      sortedBy key (xs.filter fun x => ¬ key x < cut) := by
  rw [← filter_sortedBy_comm, ← filter_sortedBy_comm]
  exact (filter_append_filter_of_pairwise cut (sortedBy_pairwise key xs)).symm

/-! ## Grouping -/

/-- The groups of a list by a key hold its elements. -/
theorem flatMap_filter_perm {α : Type u} {κ : Type v} [DecidableEq κ] {f : α → κ} {keys : List κ}
    (hkeys : keys.Nodup) {xs : List α} (hmem : ∀ x ∈ xs, f x ∈ keys) :
    (keys.flatMap fun k => xs.filter fun x => f x = k).Perm xs := by
  induction keys generalizing xs with
  | nil =>
    obtain rfl := eq_nil_iff_forall_not_mem.mpr fun x hx => by simpa using hmem x hx
    exact .refl _
  | cons k keys ih =>
    obtain ⟨hk, hkeys⟩ := nodup_cons.mp hkeys
    have hrest : (keys.flatMap fun l => xs.filter fun x => f x = l) =
        keys.flatMap fun l => (xs.filter fun x => ¬ f x = k).filter fun x => f x = l := by
      refine flatMap_congr fun l hl => ?_
      rw [filter_filter]
      refine filter_congr fun x _ => ?_
      by_cases hx : f x = l
      · have hne : f x ≠ k := by
          rintro rfl
          exact hk (hx ▸ hl)
        simp [hx, hx ▸ hne]
      · simp [hx]
    have hothers : ∀ x ∈ xs.filter fun x => ¬ f x = k, f x ∈ keys := by
      intro x hx
      obtain ⟨hmem', hne⟩ := mem_filter.mp hx
      exact (mem_cons.mp (hmem x hmem')).resolve_left (by simpa using hne)
    rw [flatMap_cons, hrest]
    refine ((ih hkeys hothers).append_left _).trans ?_
    simpa using filter_append_perm (fun x => decide (f x = k)) xs

/-- The group of a key among the groups, each of which holds elements of its key only. -/
theorem filter_flatten_of_forall₂ {α : Type u} {κ : Type v} [DecidableEq κ] {f : α → κ}
    {keys : List κ} (hkeys : keys.Nodup) {groups : List (List α)}
    (h : Forall₂ (fun k group => ∀ x ∈ group, f x = k) keys groups) (key : κ) :
    (key ∉ keys ∧ groups.flatten.filter (fun x => f x = key) = []) ∨
    ∃ group, (key, group) ∈ keys.zip groups ∧
      groups.flatten.filter (fun x => f x = key) = group := by
  induction h with
  | nil => exact .inl ⟨by simp, rfl⟩
  | @cons k group keys groups hgroup hrest ih =>
    obtain ⟨hk, htail⟩ := nodup_cons.mp hkeys
    rw [flatten_cons, filter_append]
    by_cases heq : key = k
    · subst heq
      have hself : group.filter (fun x => f x = key) = group :=
        filter_eq_self.mpr fun x hx => decide_eq_true (hgroup x hx)
      have hothers : groups.flatten.filter (fun x => f x = key) = [] := by
        rcases ih htail with ⟨-, hnil⟩ | ⟨_, hzip, -⟩
        · exact hnil
        · exact absurd (of_mem_zip hzip).1 hk
      exact .inr ⟨group, by simp, by rw [hself, hothers, append_nil]⟩
    · have hnone : group.filter (fun x => f x = key) = [] :=
        filter_eq_nil_iff.mpr fun x hx => by simpa [hgroup x hx] using Ne.symm heq
      rw [hnone, nil_append]
      rcases ih htail with ⟨hnot, hnil⟩ | ⟨group', hzip, hfilt⟩
      · exact .inl ⟨by simp [heq, hnot], hnil⟩
      · exact .inr ⟨group', mem_cons_of_mem _ hzip, hfilt⟩

/-! ## `sorted(set(…))` -/

@[simp] theorem mem_sortedSet {xs : List κ} {x : κ} : x ∈ sortedSet xs ↔ x ∈ xs := by
  simp [sortedSet]

theorem sortedSet_nodup (xs : List κ) : (sortedSet xs).Nodup :=
  (sortedBy_perm id xs.dedup).nodup_iff.mpr (nodup_dedup xs)

theorem length_sortedSet {xs : List κ} (h : xs.Nodup) : (sortedSet xs).length = xs.length := by
  rw [sortedSet, length_sortedBy, h.dedup]

/-- Distinct elements are sorted as they are. -/
theorem sortedSet_of_nodup {xs : List κ} (h : xs.Nodup) : sortedSet xs = sortedBy id xs := by
  rw [sortedSet, h.dedup]

/-- `sorted(set(…))` depends on the elements only. -/
theorem sortedSet_congr {xs ys : List κ} (h : ∀ x, x ∈ xs ↔ x ∈ ys) :
    sortedSet xs = sortedSet ys := by
  refine sortedBy_eq_of_perm (fun _ _ _ _ hab => hab) ?_
  rw [perm_ext_iff_of_nodup (nodup_dedup xs) (nodup_dedup ys)]
  intro x
  simp [h x]

theorem filter_sortedSet (p : κ → Bool) (xs : List κ) :
    (sortedSet xs).filter p = sortedSet (xs.filter p) := by
  rw [sortedSet, filter_sortedBy_comm, sortedSet]
  refine sortedBy_eq_of_perm (fun _ _ _ _ h => h) ?_
  rw [perm_ext_iff_of_nodup ((nodup_dedup _).filter _) (nodup_dedup _)]
  simp

end OvcReplay.Python
