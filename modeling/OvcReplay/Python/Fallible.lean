import Mathlib

/-! # Functions that raise

A pure function that may raise returns in `Except`. `Returns r` says that it did not raise, and a
comprehension over a list returns when every element does. -/

namespace OvcReplay.Python

open List

universe u v w

variable {ε : Type u} {α : Type v} {β γ : Type w}

/-- The call returned. -/
def Returns (r : Except ε α) : Prop := ∃ a, r = .ok a

instance (r : Except ε α) : Decidable (Returns r) :=
  match r with
  | .ok a => .isTrue ⟨a, rfl⟩
  | .error _ => .isFalse fun ⟨_, h⟩ => nomatch h

@[simp] theorem returns_ok (a : α) : Returns (.ok a : Except ε α) := ⟨a, rfl⟩

@[simp] theorem returns_pure (a : β) : Returns (pure a : Except ε β) := ⟨a, rfl⟩

@[simp] theorem not_returns_error (e : ε) : ¬ Returns (.error e : Except ε α) := by
  rintro ⟨a, h⟩
  cases h

variable {r : Except ε α}

theorem not_returns_iff : ¬ Returns r ↔ ∃ e, r = .error e := by
  cases r <;> simp

@[simp] theorem returns_map {α β : Type w} {f : α → β} {r : Except ε α} :
    Returns (r.map f) ↔ Returns r := by
  cases r <;> simp [Except.map]

@[simp] theorem returns_mapError {ε' : Type u} {f : ε → ε'} :
    Returns (r.mapError f) ↔ Returns r := by
  cases r <;> simp [Except.mapError]

@[simp] theorem returns_bind {α β : Type w} {r : Except ε α} {f : α → Except ε β} :
    Returns (r >>= f) ↔ ∃ a, r = .ok a ∧ Returns (f a) := by
  cases r <;> simp [bind, Except.bind]

theorem bind_ok {α β : Type w} {r : Except ε α} {f : α → Except ε β} {b : β} :
    r >>= f = .ok b ↔ ∃ a, r = .ok a ∧ f a = .ok b := by
  cases r <;> simp [bind, Except.bind]

theorem bind_intro {α β : Type w} {r : Except ε α} {f : α → Except ε β} {a : α} {b : β}
    (h : r = .ok a) (hf : f a = .ok b) : r >>= f = .ok b :=
  bind_ok.mpr ⟨a, h, hf⟩

theorem pure_ok {a b : β} : (pure a : Except ε β) = .ok b ↔ a = b := by
  simp [pure, Except.pure]

theorem map_ok {α β : Type w} {f : α → β} {r : Except ε α} {b : β} :
    r.map f = .ok b ↔ ∃ a, r = .ok a ∧ f a = b := by
  cases r <;> simp [Except.map]

theorem mapError_ok {ε' : Type u} {f : ε → ε'} {a : α} : r.mapError f = .ok a ↔ r = .ok a := by
  cases r <;> simp [Except.mapError]

/-- `if not condition: raise e`. -/
def check (condition : Prop) [Decidable condition] (e : ε) : Except ε Unit :=
  if condition then .ok () else .error e

@[simp] theorem check_ok {condition : Prop} [Decidable condition] {e : ε} {u : Unit} :
    check condition e = .ok u ↔ condition := by
  by_cases h : condition <;> simp [check, h]

/-! ## Comprehensions -/

theorem mapM_cons_ok {α β : Type w} {f : α → Except ε β} {x : α} {xs : List α} {ys : List β} :
    (x :: xs).mapM f = .ok ys ↔ ∃ y ys', f x = .ok y ∧ xs.mapM f = .ok ys' ∧ ys = y :: ys' := by
  rw [mapM_cons, bind_ok]
  simp only [bind_ok, pure, Except.pure, Except.ok.injEq]
  constructor
  · rintro ⟨y, hy, ys', hys, rfl⟩
    exact ⟨y, ys', hy, hys, rfl⟩
  · rintro ⟨y, ys', hy, hys, rfl⟩
    exact ⟨y, hy, ys', hys, rfl⟩

/-- **A comprehension returns the list of what its elements return.** -/
theorem mapM_ok_iff {α β : Type w} {f : α → Except ε β} {xs : List α} {ys : List β} :
    xs.mapM f = .ok ys ↔ Forall₂ (fun x y => f x = .ok y) xs ys := by
  induction xs generalizing ys with
  | nil =>
    rw [mapM_nil, forall₂_nil_left_iff]
    exact ⟨fun h => (Except.ok.inj h).symm, fun h => h ▸ rfl⟩
  | cons x xs ih =>
    rw [mapM_cons_ok]
    constructor
    · rintro ⟨y, ys', hy, hys, rfl⟩
      exact .cons hy (ih.mp hys)
    · intro h
      cases h with
      | cons hy hys => exact ⟨_, _, hy, ih.mpr hys, rfl⟩

/-- The partner of an element of the left list. -/
theorem mem_of_forall₂_left {α : Type u} {β : Type v} {R : α → β → Prop} {xs : List α}
    {ys : List β} (h : Forall₂ R xs ys) {x : α} (hx : x ∈ xs) : ∃ y ∈ ys, R x y := by
  induction h with
  | nil => simp at hx
  | cons hy _ ih =>
    rcases mem_cons.mp hx with rfl | hx
    · exact ⟨_, by simp, hy⟩
    · obtain ⟨y, hmem, hy⟩ := ih hx
      exact ⟨y, mem_cons_of_mem _ hmem, hy⟩

/-- The partner of an element of the right list. -/
theorem mem_of_forall₂_right {α : Type u} {β : Type v} {R : α → β → Prop} {xs : List α}
    {ys : List β} (h : Forall₂ R xs ys) {y : β} (hy : y ∈ ys) : ∃ x ∈ xs, R x y := by
  obtain ⟨x, hx, hxy⟩ := mem_of_forall₂_left h.flip hy
  exact ⟨x, hx, hxy⟩

/-- What holds of any two elements of the right list, in order, holds of their partners. -/
theorem pairwise_of_forall₂ {α : Type u} {β : Type v} {R : α → β → Prop} {S : α → α → Prop}
    {T : β → β → Prop} (hST : ∀ x x' y y', R x y → R x' y' → T y y' → S x x') {xs : List α}
    {ys : List β} (h : Forall₂ R xs ys) (hys : ys.Pairwise T) : xs.Pairwise S := by
  induction h with
  | nil => exact .nil
  | cons hxy hrest ih =>
    obtain ⟨hhead, htail⟩ := pairwise_cons.mp hys
    refine pairwise_cons.mpr ⟨fun x' hx' => ?_, ih htail⟩
    obtain ⟨y', hy', hxy'⟩ := mem_of_forall₂_left hrest hx'
    exact hST _ _ _ _ hxy hxy' (hhead y' hy')

theorem mem_of_mapM_left {α β : Type w} {f : α → Except ε β} {xs : List α} {ys : List β}
    (h : xs.mapM f = .ok ys) {x : α} (hx : x ∈ xs) : ∃ y ∈ ys, f x = .ok y :=
  mem_of_forall₂_left (mapM_ok_iff.mp h) hx

theorem mem_of_mapM_right {α β : Type w} {f : α → Except ε β} {xs : List α} {ys : List β}
    (h : xs.mapM f = .ok ys) {y : β} (hy : y ∈ ys) : ∃ x ∈ xs, f x = .ok y :=
  mem_of_forall₂_right (mapM_ok_iff.mp h) hy

/-- A comprehension returns iff every element does. -/
theorem returns_mapM {α β : Type w} {f : α → Except ε β} {xs : List α} :
    Returns (xs.mapM f) ↔ ∀ x ∈ xs, Returns (f x) := by
  induction xs with
  | nil => simp [mapM_nil]
  | cons x xs ih =>
    rw [forall_mem_cons, ← ih]
    constructor
    · rintro ⟨ys, h⟩
      obtain ⟨y, ys', hy, hys, -⟩ := mapM_cons_ok.mp h
      exact ⟨⟨y, hy⟩, ⟨ys', hys⟩⟩
    · rintro ⟨⟨y, hy⟩, ⟨ys, hys⟩⟩
      exact ⟨y :: ys, mapM_cons_ok.mpr ⟨y, ys, hy, hys, rfl⟩⟩

/-- A comprehension over a list of two parts. -/
theorem mapM_append_ok {α β : Type w} {f : α → Except ε β} {xs xs' : List α}
    {ys ys' : List β} (h : xs.mapM f = .ok ys) (h' : xs'.mapM f = .ok ys') :
    (xs ++ xs').mapM f = .ok (ys ++ ys') := by
  rw [mapM_ok_iff] at h h' ⊢
  exact rel_append h h'

/-- What a comprehension over a list of two parts collects. -/
theorem exists_of_mapM_append {α β : Type w} {f : α → Except ε β} {xs xs' : List α} {zs : List β}
    (h : (xs ++ xs').mapM f = .ok zs) :
    ∃ ys ys', xs.mapM f = .ok ys ∧ xs'.mapM f = .ok ys' ∧ zs = ys ++ ys' := by
  obtain ⟨ys, hys⟩ : Returns (xs.mapM f) := returns_mapM.mpr fun x hx =>
    returns_mapM.mp ⟨zs, h⟩ x (mem_append_left _ hx)
  obtain ⟨ys', hys'⟩ : Returns (xs'.mapM f) := returns_mapM.mpr fun x hx =>
    returns_mapM.mp ⟨zs, h⟩ x (mem_append_right _ hx)
  exact ⟨ys, ys', hys, hys', Except.ok.inj (h.symm.trans (mapM_append_ok hys hys'))⟩

/-- Functions that agree on a list collect the same. -/
theorem mapM_congr {α β : Type w} {f g : α → Except ε β} {xs : List α}
    (h : ∀ x ∈ xs, f x = g x) : xs.mapM f = xs.mapM g := by
  induction xs with
  | nil => rfl
  | cons x xs ih =>
    rw [mapM_cons, mapM_cons, h x (by simp),
      ih fun y hy => h y (mem_cons_of_mem _ hy)]

/-- Two comprehensions in a row are one over the composed function. -/
theorem mapM_mapM_ok {α β γ : Type w} {f : α → Except ε β} {g : β → Except ε γ} {xs : List α}
    {zs : List γ} :
    (∃ ys, xs.mapM f = .ok ys ∧ ys.mapM g = .ok zs) ↔ (xs.mapM fun x => f x >>= g) = .ok zs := by
  simp only [mapM_ok_iff]
  constructor
  · rintro ⟨ys, hxy, hyz⟩
    induction hxy generalizing zs with
    | nil => exact forall₂_nil_left_iff.mpr (forall₂_nil_left_iff.mp hyz)
    | cons hx _ ih =>
      cases hyz with
      | cons hy hys => exact .cons (bind_intro hx hy) (ih hys)
  · intro h
    induction h with
    | nil => exact ⟨[], .nil, .nil⟩
    | cons hx _ ih =>
      obtain ⟨y, hy, hz⟩ := bind_ok.mp hx
      obtain ⟨ys, hxs, hzs⟩ := ih
      exact ⟨y :: ys, .cons hy hxs, .cons hz hzs⟩

/-- What a comprehension collects, element by element. -/
theorem map_some_of_mapM {α β : Type w} {f : α → Except ε β} {xs : List α} {ys : List β}
    (h : xs.mapM f = .ok ys) : ys.map some = xs.map fun x => (f x).toOption := by
  rw [mapM_ok_iff] at h
  induction h with
  | nil => rfl
  | cons hx _ ih => simp [hx, ih, Except.toOption]

/-- Keeping the elements by what a comprehension collects for them. -/
theorem map_fst_filter_zip {α β : Type w} {f : α → Except ε β} {xs : List α} {ys : List β}
    (h : xs.mapM f = .ok ys) (q : β → Bool) :
    ((xs.zip ys).filter fun p => q p.2).map Prod.fst = xs.filter fun x => (f x).toOption.any q := by
  rw [mapM_ok_iff] at h
  induction h with
  | nil => rfl
  | @cons x y xs ys hx _ ih =>
    by_cases hq : q y = true
    · simp [hx, hq, Except.toOption, ih]
    · simp [hx, hq, Except.toOption, ih]

/-- A comprehension over a permutation collects a permutation. -/
theorem perm_of_mapM {α β : Type w} {f : α → Except ε β} {xs xs' : List α} {ys ys' : List β}
    (hperm : xs.Perm xs') (h : xs.mapM f = .ok ys) (h' : xs'.mapM f = .ok ys') :
    ys.Perm ys' := by
  rw [← map_perm_map_iff (fun _ _ h => Option.some.inj h), map_some_of_mapM h, map_some_of_mapM h']
  exact hperm.map _

/-! ## Values -/

/-- What leaves a value returned it. -/
theorem eq_ok_of_toOption {ε α : Type} {r : Except ε α} {a : α} (h : r.toOption = some a) :
    r = .ok a := by
  cases r with
  | ok b => exact congrArg Except.ok (Option.some.inj h)
  | error e => cases h

theorem eq_ok_getD {ε α : Type} {r : Except ε α} (h : r.toOption.isSome = true) (default : α) :
    r = .ok (r.toOption.getD default) := by
  cases r with
  | ok b => rfl
  | error e => cases h

/-! ## What a computation can raise

`RaisesOnly Q r`: every exception that escapes `r` is in `Q`. One rule for each way computations are
put together. A loop of checks is read as the checks it makes. -/

section

variable {Q : ε → Prop}

/-- **Every exception that escapes is in `Q`.** -/
def RaisesOnly {α : Type v} (Q : ε → Prop) (r : Except ε α) : Prop := ∀ e, r = .error e → Q e

@[simp] theorem raisesOnly_ok {α : Type v} {a : α} : RaisesOnly Q (.ok a : Except ε α) :=
  fun _ h => by cases h

@[simp] theorem raisesOnly_error {α : Type v} {e : ε} :
    RaisesOnly Q (.error e : Except ε α) ↔ Q e :=
  ⟨fun h => h e rfl, fun h _ he => Except.error.inj he ▸ h⟩

theorem raisesOnly_check {condition : Prop} [Decidable condition] {e : ε}
    (h : ¬ condition → Q e) : RaisesOnly Q (check condition e) := by
  unfold check
  split_ifs with hc
  · exact raisesOnly_ok
  · exact raisesOnly_error.mpr (h hc)

theorem RaisesOnly.bind {α β : Type w} {r : Except ε α} {f : α → Except ε β}
    (hr : RaisesOnly Q r) (hf : ∀ a, r = .ok a → RaisesOnly Q (f a)) :
    RaisesOnly Q (r >>= f) := by
  cases r with
  | ok a => exact hf a rfl
  | error e => exact raisesOnly_error.mpr (raisesOnly_error.mp hr)

theorem RaisesOnly.map {α β : Type w} {r : Except ε α} {f : α → β} (hr : RaisesOnly Q r) :
    RaisesOnly Q (r.map f) := by
  cases r with
  | ok a => exact raisesOnly_ok
  | error e => exact raisesOnly_error.mpr (raisesOnly_error.mp hr)

theorem raisesOnly_mapError {ε' : Type u} {α : Type v} {r : Except ε' α} {f : ε' → ε}
    (h : ∀ e, r = .error e → Q (f e)) : RaisesOnly Q (r.mapError f) := by
  cases r with
  | ok a => exact raisesOnly_ok
  | error e => exact raisesOnly_error.mpr (h e rfl)

theorem raisesOnly_mapM {α β : Type w} {f : α → Except ε β} {xs : List α}
    (h : ∀ x ∈ xs, RaisesOnly Q (f x)) : RaisesOnly Q (xs.mapM f) := by
  induction xs with
  | nil => exact raisesOnly_ok
  | cons x xs ih =>
    rw [mapM_cons]
    refine (h x (by simp)).bind fun y _ => ?_
    refine (ih fun z hz => h z (mem_cons_of_mem _ hz)).bind fun ys _ => ?_
    exact raisesOnly_ok

theorem raisesOnly_forM {α : Type w} {f : α → Except ε PUnit} {xs : List α}
    (h : ∀ x ∈ xs, RaisesOnly Q (f x)) : RaisesOnly Q (forM xs f) := by
  induction xs with
  | nil => exact raisesOnly_ok
  | cons x xs ih =>
    rw [forM_cons]
    refine (h x (by simp)).bind fun _ _ => ?_
    exact ih fun z hz => h z (mem_cons_of_mem _ hz)

/-! ## Loops that check -/

/-- **A loop of checks passes** when every check does. -/
theorem forM_ok {α : Type w} {f : α → Except ε PUnit} {xs : List α} :
    forM xs f = .ok PUnit.unit ↔ ∀ x ∈ xs, f x = .ok PUnit.unit := by
  induction xs with
  | nil => simp [forM_nil, pure, Except.pure]
  | cons x xs ih =>
    rw [forM_cons, bind_ok, forall_mem_cons, ← ih]
    exact ⟨fun ⟨_, hx, hxs⟩ => ⟨hx, hxs⟩, fun ⟨hx, hxs⟩ => ⟨_, hx, hxs⟩⟩

end

/-! ## Two reads in either order

Where two computations both fail, the error is that of the one made first. Whether the order matters
is whether they fail with different errors; over a comprehension the first element counts at which
they do. -/

section

variable {ε : Type u} {α β γ : Type w}

/-- **Both fail, with different errors.** -/
def Clash (x : Except ε α) (y : Except ε β) : Prop :=
  ∃ e e', x = .error e ∧ y = .error e' ∧ e ≠ e'

/-- Two reads can be swapped iff they do not clash and their values are used alike. -/
theorem swap_iff {x : Except ε α} {y : Except ε β} {f : α → β → Except ε γ}
    {g : β → α → Except ε γ} :
    (x >>= fun a => y >>= fun b => f a b) = (y >>= fun b => x >>= fun a => g b a) ↔
      ¬ Clash x y ∧ ∀ a b, x = .ok a → y = .ok b → f a b = g b a := by
  cases x <;> cases y <;> simp [Clash, bind, Except.bind]

/-- What follows two results does not tell them apart where they return alike. -/
theorem bind_congr_iff {x y : Except ε α} {f : α → Except ε β}
    (hval : ∀ a, x = .ok a ↔ y = .ok a) : x >>= f = y >>= f ↔ x = y := by
  cases x with
  | ok a => simp [(hval a).mp rfl]
  | error e =>
    cases y with
    | ok b => simpa using (hval b).mpr rfl
    | error e' => simp [bind, Except.bind]

/-- **Two comprehensions agree iff their functions do** at every element up to which they return. -/
theorem mapM_eq_iff {f g : α → Except ε β} {xs : List α}
    (hval : ∀ x ∈ xs, ∀ a, f x = .ok a ↔ g x = .ok a) :
    xs.mapM f = xs.mapM g ↔
      ∀ before x after, xs = before ++ x :: after → (∀ y ∈ before, Returns (f y)) → f x = g x := by
  induction xs with
  | nil => simp
  | cons x xs ih =>
    have hrest := ih fun y hy => hval y (mem_cons_of_mem _ hy)
    have hhead := hval x mem_cons_self
    have hsplit : (x :: xs).mapM f = (x :: xs).mapM g ↔
        f x = g x ∧ (Returns (f x) → xs.mapM f = xs.mapM g) := by
      rw [mapM_cons, mapM_cons]
      cases hf : f x with
      | error e =>
        cases hg : g x with
        | ok b => exact absurd ((hhead b).mpr hg) (by simp [hf])
        | error e' => simp [bind, Except.bind]
      | ok a =>
        rw [(hhead a).mp hf]
        cases xs.mapM f <;> cases xs.mapM g <;> simp [bind, Except.bind, pure, Except.pure]
    rw [hsplit, hrest]
    constructor
    · rintro ⟨heq, htail⟩ before y after hxs hbef
      cases before with
      | nil =>
        obtain ⟨rfl, -⟩ := List.cons.inj hxs
        exact heq
      | cons z before =>
        obtain ⟨rfl, htailEq⟩ := List.cons.inj hxs
        exact htail (hbef _ mem_cons_self) before y after htailEq
          fun w hw => hbef w (mem_cons_of_mem _ hw)
    · intro h
      refine ⟨h [] x xs rfl (by simp), fun hx before y after hxs hbef => ?_⟩
      refine h (x :: before) y after (by rw [hxs, cons_append]) fun z hz => ?_
      rcases mem_cons.mp hz with rfl | hz
      · exact hx
      · exact hbef z hz

end

end OvcReplay.Python
