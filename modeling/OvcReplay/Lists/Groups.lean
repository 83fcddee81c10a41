import Mathlib

/-! # Lists cut into groups

A scan that grows a group and closes it. Some elements are *live*; a live element joins the group
whose last element is right before it, or it closes the group and opens one of its own, and after
some elements the group is closed at once. The groups partition the live elements, and two live
elements with no live one between them share a group exactly when they are neighbours, the second
joins the first and the group was not closed after the first. A group that is closed stays as it
is. -/

namespace OvcReplay.Lists

open List

universe u

variable {α : Type u}

/-- The groups that are closed and the one that grows. -/
structure Groups (α : Type u) where
  closed : List (List α)
  active : List α

namespace Groups

/-- The scan before the first element. -/
def init : Groups α := ⟨[], []⟩

/-- The scan with its group closed. -/
def close : Groups α → Groups α
  | ⟨closed, []⟩ => ⟨closed, []⟩
  | ⟨closed, x :: xs⟩ => ⟨closed ++ [x :: xs], []⟩

/-- The scan with an element in its group. -/
def add (s : Groups α) (x : α) : Groups α := ⟨s.closed, s.active ++ [x]⟩

/-- The element joins the last one of the group. -/
def Continues (joins : α → α → Prop) (s : Groups α) (x : α) : Prop :=
  match s.active.getLast? with
  | some p => joins p x
  | none => False

instance (joins : α → α → Prop) [DecidableRel joins] (s : Groups α) (x : α) :
    Decidable (Continues joins s x) := by
  unfold Continues
  cases s.active.getLast? <;> infer_instance

section Scan

variable (live : α → Prop) (joins : α → α → Prop) (ends : α → Prop) [DecidablePred live]
  [DecidableRel joins] [DecidablePred ends]

/-- The scan after a live element, before it is asked whether the element ends the group. -/
def enter (s : Groups α) (x : α) : Groups α :=
  if Continues joins s x then s.add x else s.close.add x

/-- One step of the scan. -/
def step (s : Groups α) (x : α) : Groups α :=
  if live x then
    if ends x then (s.enter joins x).close else s.enter joins x
  else s.close

/-- The scan after a list. -/
def after (s : Groups α) (xs : List α) : Groups α := xs.foldl (step live joins ends) s

/-- The groups at the end. -/
def all (s : Groups α) : List (List α) := s.close.closed

end Scan

variable {live : α → Prop} {joins : α → α → Prop} {ends : α → Prop} [DecidablePred live]
  [DecidableRel joins] [DecidablePred ends] {s : Groups α}

theorem after_append (s : Groups α) (xs ys : List α) :
    s.after live joins ends (xs ++ ys) = (s.after live joins ends xs).after live joins ends ys :=
  foldl_append

/-! ## Closing -/

@[simp] theorem active_close (s : Groups α) : s.close.active = [] := by
  obtain ⟨closed, _ | ⟨x, xs⟩⟩ := s <;> rfl

@[simp] theorem close_close (s : Groups α) : s.close.close = s.close := by
  obtain ⟨closed, _ | ⟨x, xs⟩⟩ := s <;> rfl

theorem close_of_active (h : s.active = []) : s.close = s := by
  obtain ⟨closed, active⟩ := s
  obtain rfl : active = [] := h
  rfl

theorem closed_close_of_ne (h : s.active ≠ []) : s.close.closed = s.closed ++ [s.active] := by
  obtain ⟨closed, _ | ⟨x, xs⟩⟩ := s
  · exact absurd rfl h
  · rfl

theorem closed_prefix_close (s : Groups α) : s.closed <+: s.close.closed := by
  obtain ⟨closed, _ | ⟨x, xs⟩⟩ := s
  · exact prefix_refl _
  · exact prefix_append _ _

omit [DecidableRel joins] in
theorem not_continues_of_active (h : s.active = []) (x : α) : ¬ Continues joins s x := by
  rw [Continues, h]
  exact id

/-! ## The groups partition the live elements -/

/-- The elements of all groups. -/
def members (s : Groups α) : List α := s.closed.flatten ++ s.active

theorem flatten_all (s : Groups α) : s.all.flatten = s.members := by
  obtain ⟨closed, _ | ⟨x, xs⟩⟩ := s <;> simp [all, close, members]

theorem members_close (s : Groups α) : s.close.members = s.members := by
  rw [← flatten_all, all, close_close]
  exact flatten_all s

theorem members_add (s : Groups α) (x : α) : (s.add x).members = s.members ++ [x] := by
  simp [members, add]

theorem members_enter (s : Groups α) (x : α) : (s.enter joins x).members = s.members ++ [x] := by
  rw [enter]
  by_cases h : Continues joins s x
  · rw [if_pos h, members_add]
  · rw [if_neg h, members_add, members_close]

theorem members_step (s : Groups α) (x : α) :
    (s.step live joins ends x).members = s.members ++ [x].filter live := by
  rw [step]
  by_cases hlive : live x
  · rw [if_pos hlive, filter_cons_of_pos (by simpa using hlive), filter_nil]
    by_cases hends : ends x
    · rw [if_pos hends, members_close, members_enter]
    · rw [if_neg hends, members_enter]
  · rw [if_neg hlive, members_close, filter_cons_of_neg (by simpa using hlive),
      filter_nil, append_nil]

/-- **The groups hold the live elements**, in their order. -/
theorem members_after (s : Groups α) (xs : List α) :
    (s.after live joins ends xs).members = s.members ++ xs.filter live := by
  induction xs generalizing s with
  | nil => exact (append_nil _).symm
  | cons x xs ih =>
    show ((s.step live joins ends x).after live joins ends xs).members = _
    rw [ih, members_step, append_assoc, ← filter_append]
    rfl

theorem flatten_all_after (xs : List α) :
    (init.after live joins ends xs).all.flatten = xs.filter live := by
  rw [flatten_all, members_after]
  rfl

/-! ## A closed group stays as it is -/

theorem closed_prefix_enter (s : Groups α) (x : α) : s.closed <+: (s.enter joins x).closed := by
  rw [enter]
  by_cases h : Continues joins s x
  · rw [if_pos h]
    exact prefix_refl _
  · rw [if_neg h]
    exact closed_prefix_close s

theorem enter_prefix_step {x : α} (hlive : live x) :
    (s.enter joins x).closed <+: (s.step live joins ends x).closed := by
  rw [step, if_pos hlive]
  by_cases hends : ends x
  · rw [if_pos hends]
    exact closed_prefix_close _
  · rw [if_neg hends]

theorem closed_prefix_step (s : Groups α) (x : α) :
    s.closed <+: (s.step live joins ends x).closed := by
  by_cases hlive : live x
  · exact (closed_prefix_enter s x).trans (enter_prefix_step hlive)
  · rw [step, if_neg hlive]
    exact closed_prefix_close s

theorem closed_prefix_after (s : Groups α) (xs : List α) :
    s.closed <+: (s.after live joins ends xs).closed := by
  induction xs generalizing s with
  | nil => exact prefix_refl _
  | cons x xs ih => exact (closed_prefix_step s x).trans (ih _)

/-! ## Elements of one group -/

/-- The elements are in one group. -/
def Together (s : Groups α) (a b : α) : Prop := ∃ g ∈ s.all, a ∈ g ∧ b ∈ g

variable {a b : α}

theorem Together.close (h : Together s a b) : Together s.close a b := by
  rw [Together, all, close_close]
  exact h

theorem together_of_active (ha : a ∈ s.active) (hb : b ∈ s.active) : Together s a b := by
  have hne : s.active ≠ [] := ne_nil_of_mem ha
  refine ⟨s.active, ?_, ha, hb⟩
  rw [all, closed_close_of_ne hne]
  exact mem_append_right _ mem_cons_self

theorem Together.add (h : Together s a b) (x : α) : Together (s.add x) a b := by
  obtain ⟨g, hg, ha, hb⟩ := h
  obtain ⟨closed, active⟩ := s
  cases active with
  | nil => exact ⟨g, (closed_prefix_close _).subset hg, ha, hb⟩
  | cons y ys =>
    rw [all, closed_close_of_ne (cons_ne_nil _ _), mem_append] at hg
    rcases hg with hg | hg
    · exact ⟨g, (closed_prefix_close _).subset hg, ha, hb⟩
    · obtain rfl := mem_singleton.mp hg
      exact together_of_active (mem_append_left _ ha) (mem_append_left _ hb)

theorem Together.enter (h : Together s a b) (x : α) : Together (s.enter joins x) a b := by
  rw [Groups.enter]
  by_cases hcontinues : Continues joins s x
  · rw [if_pos hcontinues]
    exact h.add x
  · rw [if_neg hcontinues]
    exact h.close.add x

theorem Together.step (h : Together s a b) (x : α) : Together (s.step live joins ends x) a b := by
  rw [Groups.step]
  by_cases hlive : live x
  · rw [if_pos hlive]
    by_cases hends : ends x
    · rw [if_pos hends]
      exact (h.enter x).close
    · rw [if_neg hends]
      exact h.enter x
  · rw [if_neg hlive]
    exact h.close

theorem Together.after (h : Together s a b) (xs : List α) :
    Together (s.after live joins ends xs) a b := by
  induction xs generalizing s with
  | nil => exact h
  | cons x xs ih => exact ih (h.step x)

/-- An element of groups without repetition is in one of them. -/
theorem group_unique {groups : List (List α)} (h : groups.flatten.Nodup) {g g' : List α}
    (hg : g ∈ groups) (hg' : g' ∈ groups) (ha : a ∈ g) (ha' : a ∈ g') : g = g' := by
  by_contra hne
  have hdisj := (nodup_flatten.mp h).2
  have hsymm : Std.Symm (Disjoint : List α → List α → Prop) := ⟨fun _ _ hd => hd.symm⟩
  exact hdisj.forall hg hg' hne ha ha'

/-! ## The end of a group -/

theorem getLast?_enter (s : Groups α) (x : α) : (s.enter joins x).active.getLast? = some x := by
  rw [enter]
  by_cases h : Continues joins s x
  · rw [if_pos h, add, getLast?_concat]
  · rw [if_neg h, add, getLast?_concat]

/-- What the group ends with after a live element. -/
theorem getLast?_step {x : α} (hlive : live x) (hends : ¬ ends x) :
    (s.step live joins ends x).active.getLast? = some x := by
  rw [step, if_pos hlive, if_neg hends, getLast?_enter]

theorem active_step_of_ends {x : α} (h : live x → ends x) :
    (s.step live joins ends x).active = [] := by
  rw [step]
  by_cases hlive : live x
  · rw [if_pos hlive, if_pos (h hlive), active_close]
  · rw [if_neg hlive, active_close]

/-- There is no group after elements that are not live. -/
theorem active_after {xs : List α} (hxs : ∀ x ∈ xs, ¬ live x) (h : s.active = [] ∨ xs ≠ []) :
    (s.after live joins ends xs).active = [] := by
  induction xs using reverseRecOn with
  | nil => exact h.resolve_right fun hne => hne rfl
  | append_singleton xs x _ =>
    rw [after_append]
    exact active_step_of_ends fun hlive => absurd hlive (hxs x (by simp))

/-- An element that opens a group is not with one that came before. -/
theorem not_together_of_not_continues {xs post : List α} (hnd : (xs ++ b :: post).Nodup)
    (ha : a ∈ xs) (hlive : live a) (hb : live b)
    (hnot : ¬ Continues joins (init.after live joins ends xs) b) :
    ¬ Together (init.after live joins ends (xs ++ b :: post)) a b := by
  set s := init.after live joins ends xs with hs
  rintro ⟨g, hg, hag, hbg⟩
  have hmems : s.all.flatten = xs.filter live := flatten_all_after xs
  obtain ⟨g', hg', hag'⟩ := mem_flatten.mp
    (show a ∈ s.all.flatten by rw [hmems]; exact mem_filter.mpr ⟨ha, by simpa using hlive⟩)
  -- the group of the first element was closed before the second one came
  have hclosed : s.all <+: (init.after live joins ends (xs ++ b :: post)).all := by
    rw [after_append, ← hs]
    have henter : s.all <+: (s.step live joins ends b).closed := by
      refine IsPrefix.trans ?_ (enter_prefix_step hb)
      rw [enter, if_neg hnot]
      exact prefix_refl _
    exact (henter.trans (closed_prefix_after _ post)).trans (closed_prefix_close _)
  have hflat : (init.after live joins ends (xs ++ b :: post)).all.flatten.Nodup := by
    rw [flatten_all_after]
    exact hnd.filter _
  obtain rfl := group_unique hflat hg (hclosed.subset hg') hag hag'
  have hbxs : b ∈ xs.filter live := by
    rw [← hmems]
    exact mem_flatten.mpr ⟨g, hg', hbg⟩
  exact (nodup_append.mp hnd).2.2 b (mem_of_mem_filter hbxs) b mem_cons_self rfl

/-- **The groups are maximal**: of two live elements with no live one between them. -/
theorem together_iff {pre mid post : List α} (hnd : (pre ++ a :: mid ++ b :: post).Nodup)
    (ha : live a) (hb : live b) (hmid : ∀ x ∈ mid, ¬ live x) :
    Together (init.after live joins ends (pre ++ a :: mid ++ b :: post)) a b ↔
      mid = [] ∧ joins a b ∧ ¬ ends a := by
  set s := init.after live joins ends (pre ++ a :: mid) with hs
  have hmiddle : s = ((init.after live joins ends pre).step live joins ends a).after live joins
      ends mid := by
    rw [hs, after_append]
    rfl
  have hmem : a ∈ pre ++ a :: mid := by simp
  by_cases hends : ends a
  · refine ⟨fun htogether => absurd htogether ?_, fun h => absurd hends h.2.2⟩
    refine not_together_of_not_continues hnd hmem ha hb (not_continues_of_active ?_ b)
    rw [← hs, hmiddle]
    exact active_after hmid (.inl (active_step_of_ends fun _ => hends))
  · by_cases hnil : mid = []
    · subst hnil
      have hlast : s.active.getLast? = some a := by
        rw [hmiddle]
        exact getLast?_step ha hends
      by_cases hjoins : joins a b
      · refine ⟨fun _ => ⟨rfl, hjoins, hends⟩, fun _ => ?_⟩
        have hcontinues : Continues joins s b := by
          rw [Continues, hlast]
          exact hjoins
        have htogether : Together (s.add b) a b :=
          together_of_active (mem_append_left _ (mem_of_getLast? hlast)) (by simp [add])
        rw [after_append, ← hs]
        refine Together.after ?_ post
        rw [step, if_pos hb, enter, if_pos hcontinues]
        by_cases hendsb : ends b
        · rw [if_pos hendsb]
          exact htogether.close
        · rw [if_neg hendsb]
          exact htogether
      · refine ⟨fun htogether => absurd htogether ?_, fun h => absurd h.2.1 hjoins⟩
        refine not_together_of_not_continues hnd hmem ha hb ?_
        rw [← hs, Continues, hlast]
        exact hjoins
    · refine ⟨fun htogether => absurd htogether ?_, fun h => absurd h.1 hnil⟩
      refine not_together_of_not_continues hnd hmem ha hb (not_continues_of_active ?_ b)
      rw [← hs, hmiddle]
      exact active_after hmid (.inr hnil)

end Groups

end OvcReplay.Lists
