import OvcReplay.Python.Decimal

/-! # Symmetry of equality

`==` compares dictionaries by the items of its left side. It is symmetric for the values that Python
builds: a dictionary holds each key once. -/

namespace OvcReplay.Python

open List

/-! ## Keys -/

/-- The key itself, `True` and `False` being `1` and `0`. -/
def PyKey.normal : PyKey → PyKey
  | .bool b => .int (if b then 1 else 0)
  | k => k

/-- Two keys address one item iff they are the same key. -/
theorem PyKey.same_iff {k l : PyKey} : PyKey.same k l = true ↔ k.normal = l.normal := by
  cases k <;> cases l <;> simp [PyKey.same, PyKey.normal]
  next a b => cases a <;> cases b <;> simp

theorem PyKey.same_text {k : PyKey} {s : PyStr} : PyKey.same k (.str s) = true ↔ k = .str s := by
  rw [PyKey.same_iff]
  cases k <;> simp [PyKey.normal]

namespace PyVal

/-- A value that Python builds: its dictionaries hold each key once. -/
inductive Built : PyVal → Prop
  | none : Built .none
  | bool (b : Bool) : Built (.bool b)
  | int (z : Int) : Built (.int z)
  | float (x : PyFloat) : Built (.float x)
  | decimal (d : PyDecimal) : Built (.decimal d)
  | str (s : PyStr) : Built (.str s)
  | list {xs : List PyVal} (h : ∀ x ∈ xs, Built x) : Built (.list xs)
  | tuple {xs : List PyVal} (h : ∀ x ∈ xs, Built x) : Built (.tuple xs)
  | set {xs : List PyVal} (h : ∀ x ∈ xs, Built x) : Built (.set xs)
  | dict {items : List (PyKey × PyVal)} (hkeys : (items.map fun p => p.1.normal).Nodup)
      (h : ∀ p ∈ items, Built p.2) : Built (.dict items)
  | other (o : PyObject) : Built (.other o)

/-- A value without sets. -/
inductive SetFree : PyVal → Prop
  | none : SetFree .none
  | bool (b : Bool) : SetFree (.bool b)
  | int (z : Int) : SetFree (.int z)
  | float (x : PyFloat) : SetFree (.float x)
  | decimal (d : PyDecimal) : SetFree (.decimal d)
  | str (s : PyStr) : SetFree (.str s)
  | list {xs : List PyVal} (h : ∀ x ∈ xs, SetFree x) : SetFree (.list xs)
  | tuple {xs : List PyVal} (h : ∀ x ∈ xs, SetFree x) : SetFree (.tuple xs)
  | dict {items : List (PyKey × PyVal)} (h : ∀ p ∈ items, SetFree p.2) : SetFree (.dict items)
  | other (o : PyObject) : SetFree (.other o)

/-! ## Equality of items -/

/-- The items of a dictionary are items of another iff each is found there. -/
theorem pyEqItems_iff {xs ys : List (PyKey × PyVal)} : pyEqItems xs ys = true ↔
      ∀ p ∈ xs, ∃ q, (ys.find? fun q => PyKey.same q.1 p.1) = some q ∧ pyEq p.2 q.2 = true := by
  induction xs with
  | nil => simp [pyEqItems]
  | cons p xs ih =>
    obtain ⟨k, x⟩ := p
    rw [pyEqItems, Bool.and_eq_true, ih, forall_mem_cons]
    refine and_congr_left' ?_
    cases ys.find? fun q => PyKey.same q.1 k <;> simp

/-- Where each key is held once, an item is found under its key. -/
theorem find?_same {ys : List (PyKey × PyVal)} (hkeys : (ys.map fun q => q.1.normal).Nodup)
    {q : PyKey × PyVal} (hq : q ∈ ys) {k : PyKey} (h : q.1.normal = k.normal) :
    (ys.find? fun q => PyKey.same q.1 k) = some q := by
  cases hfound : ys.find? fun q => PyKey.same q.1 k with
  | none =>
    have hnot := find?_eq_none.mp hfound q hq
    exact absurd (PyKey.same_iff.mpr h) hnot
  | some r =>
    have hsame : PyKey.same r.1 k = true :=
      find?_some (p := fun q : PyKey × PyVal => PyKey.same q.1 k) hfound
    have hr := mem_of_find?_eq_some hfound
    rw [inj_on_of_nodup_map hkeys hr hq ((PyKey.same_iff.mp hsame).trans h.symm)]

/-- Equality of items is symmetric where each key is held once, on both sides. -/
theorem pyEqItems_symm {xs ys : List (PyKey × PyVal)}
    (hxs : (xs.map fun p => p.1.normal).Nodup) (hys : (ys.map fun q => q.1.normal).Nodup)
    (hlen : xs.length = ys.length)
    (ih : ∀ p ∈ xs, ∀ q ∈ ys, pyEq p.2 q.2 = true → pyEq q.2 p.2 = true)
    (h : pyEqItems xs ys = true) : pyEqItems ys xs = true := by
  rw [pyEqItems_iff] at h
  -- the keys of the left side are keys of the right side, and as many
  have hsubset : (xs.map fun p => p.1.normal) ⊆ ys.map fun q => q.1.normal := by
    intro k hk
    obtain ⟨p, hp, rfl⟩ := mem_map.mp hk
    obtain ⟨q, hq, -⟩ := h p hp
    have hsame : PyKey.same q.1 p.1 = true :=
      find?_some (p := fun q : PyKey × PyVal => PyKey.same q.1 p.1) hq
    rw [← PyKey.same_iff.mp hsame]
    exact mem_map_of_mem (f := fun q : PyKey × PyVal => q.1.normal)
      (mem_of_find?_eq_some hq)
  have hperm : (xs.map fun p => p.1.normal).Perm (ys.map fun q => q.1.normal) :=
    (hxs.subperm hsubset).perm_of_length_le (by simp [hlen])
  refine pyEqItems_iff.mpr fun q hq => ?_
  obtain ⟨p, hp, hkey⟩ := mem_map.mp
    (hperm.mem_iff.mpr (mem_map_of_mem (f := fun q : PyKey × PyVal => q.1.normal) hq))
  obtain ⟨r, hr, heq⟩ := h p hp
  have hqr := find?_same hys hq hkey.symm
  cases hqr.symm.trans hr
  exact ⟨p, find?_same hxs hp hkey, ih p hp q hq heq⟩

/-! ## Symmetry -/

theorem pyEqAtom_comm (v w : PyVal) : pyEqAtom v w = pyEqAtom w v := by
  unfold pyEqAtom
  cases v <;> cases w <;>
    first
      | rfl
      | exact Bool.beq_comm
      | (rename_i x; cases x <;> first | rfl | exact Bool.beq_comm)
      | (rename_i x y; cases x <;> cases y <;> first | rfl | exact Bool.beq_comm)

theorem pyEqList_symm {xs ys : List PyVal}
    (ih : ∀ x ∈ xs, ∀ y ∈ ys, pyEq x y = true → pyEq y x = true)
    (h : pyEqList xs ys = true) : pyEqList ys xs = true := by
  induction xs generalizing ys with
  | nil =>
    cases ys with
    | nil => exact h
    | cons y ys => simp [pyEqList] at h
  | cons x xs ihx =>
    cases ys with
    | nil => simp [pyEqList] at h
    | cons y ys =>
      rw [pyEqList, Bool.and_eq_true] at h ⊢
      refine ⟨ih x (by simp) y (by simp) h.1, ihx (fun a ha b hb => ?_) h.2⟩
      exact ih a (mem_cons_of_mem _ ha) b (mem_cons_of_mem _ hb)

/-- **`==` is symmetric**, for a value without sets. -/
theorem pyEq_symm {v w : PyVal} (hfree : SetFree w) (hv : Built v) (hw : Built w)
    (h : pyEq v w = true) : pyEq w v = true := by
  have hatom : ∀ v w : PyVal, pyEq v w = pyEqAtom v w → pyEq w v = pyEqAtom w v →
      pyEq v w = true → pyEq w v = true := by
    intro v w hleft hright h
    rw [hright, pyEqAtom_comm, ← hleft]
    exact h
  induction v generalizing w with
  | list xs ih =>
    cases w with
    | list ys =>
      cases hfree with | list hfree => cases hv with | list hv => cases hw with | list hw =>
      rw [pyEq] at h ⊢
      exact pyEqList_symm (fun x hx y hy => ih x hx (hfree y hy) (hv x hx) (hw y hy)) h
    | _ => exact hatom _ _ (by simp only [pyEq]) (by simp only [pyEq]) h
  | tuple xs ih =>
    cases w with
    | tuple ys =>
      cases hfree with | tuple hfree => cases hv with | tuple hv => cases hw with | tuple hw =>
      rw [pyEq] at h ⊢
      exact pyEqList_symm (fun x hx y hy => ih x hx (hfree y hy) (hv x hx) (hw y hy)) h
    | _ => exact hatom _ _ (by simp only [pyEq]) (by simp only [pyEq]) h
  | dict items ih =>
    cases w with
    | dict items' =>
      cases hfree with | dict hfree => cases hv with | dict hkeys hv =>
      cases hw with | dict hkeys' hw =>
      rw [pyEq, Bool.and_eq_true, beq_iff_eq] at h ⊢
      refine ⟨h.1.symm, pyEqItems_symm hkeys hkeys' h.1 (fun p hp q hq => ?_) h.2⟩
      exact ih p hp (hfree q hq) (hv p hp) (hw q hq)
    | _ => exact hatom _ _ (by simp only [pyEq]) (by simp only [pyEq]) h
  | set xs =>
    cases w with
    | set ys => cases hfree
    | _ => exact hatom _ _ (by simp only [pyEq]) (by simp only [pyEq]) h
  | _ => cases w <;> exact hatom _ _ (by simp only [pyEq]) (by simp only [pyEq]) h

end PyVal

end OvcReplay.Python
