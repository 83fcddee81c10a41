import OvcReplay.Python.Sorted

/-! # Resolving candidates one after the other

Candidates are taken in order: one that a kept candidate hits is dropped, one that clashes with a
kept candidate ends the run, and any other is kept. `resolve_conflict_iff` says when a run ends
early; `resolve_perm` and `eq_of_resolve` say how far the order within a class of candidates that do
not clash with each other matters. -/

namespace OvcReplay.Lists

open List

universe u

variable {α : Type u}

/-- How a run ended, with what it had kept and dropped. -/
structure Resolution (α : Type u) where
  conflict : Bool
  kept : List α
  dropped : List α
  deriving DecidableEq

section Run

variable (hits clash : α → α → Prop) [DecidableRel hits] [DecidableRel clash]

/-- The run from what is kept and dropped already. -/
def resolve (kept dropped : List α) : List α → Resolution α
  | [] => ⟨false, kept, dropped⟩
  | c :: cs =>
    if ∃ k ∈ kept, hits k c then resolve kept (dropped ++ [c]) cs
    else if ∃ k ∈ kept, clash k c then ⟨true, kept, dropped⟩
    else resolve (kept ++ [c]) dropped cs

/-- What is kept when no clash ends the run. -/
def survivors (kept : List α) : List α → List α
  | [] => kept
  | c :: cs => if ∃ k ∈ kept, hits k c then survivors kept cs else survivors (kept ++ [c]) cs

end Run

variable {hits clash : α → α → Prop} [DecidableRel hits] [DecidableRel clash]

/-! ## One candidate -/

variable {kept dropped cs : List α}

theorem resolve_cons_of_hit {c : α} (h : ∃ k ∈ kept, hits k c) :
    resolve hits clash kept dropped (c :: cs) = resolve hits clash kept (dropped ++ [c]) cs := by
  rw [resolve, if_pos h]

theorem resolve_cons_of_clash {c : α} (h : ¬ ∃ k ∈ kept, hits k c)
    (hclash : ∃ k ∈ kept, clash k c) :
    resolve hits clash kept dropped (c :: cs) = ⟨true, kept, dropped⟩ := by
  rw [resolve, if_neg h, if_pos hclash]

theorem resolve_cons_of_free {c : α} (h : ¬ ∃ k ∈ kept, hits k c)
    (hclash : ¬ ∃ k ∈ kept, clash k c) :
    resolve hits clash kept dropped (c :: cs) = resolve hits clash (kept ++ [c]) dropped cs := by
  rw [resolve, if_neg h, if_neg hclash]

/-- A run over two parts. -/
theorem resolve_append (kept dropped xs ys : List α) : resolve hits clash kept dropped (xs ++ ys) =
      if (resolve hits clash kept dropped xs).conflict then resolve hits clash kept dropped xs
      else resolve hits clash (resolve hits clash kept dropped xs).kept
        (resolve hits clash kept dropped xs).dropped ys := by
  induction xs generalizing kept dropped with
  | nil => rfl
  | cons x xs ih =>
    rw [cons_append]
    by_cases hhit : ∃ k ∈ kept, hits k x
    · rw [resolve_cons_of_hit hhit, resolve_cons_of_hit hhit, ih]
    · by_cases hclash : ∃ k ∈ kept, clash k x
      · rw [resolve_cons_of_clash hhit hclash, resolve_cons_of_clash hhit hclash]
        rfl
      · rw [resolve_cons_of_free hhit hclash, resolve_cons_of_free hhit hclash, ih]

/-! ## What a run keeps and drops -/

/-- What was kept stays kept. -/
theorem prefix_kept (kept dropped cs : List α) :
    kept <+: (resolve hits clash kept dropped cs).kept := by
  induction cs generalizing kept dropped with
  | nil => exact prefix_rfl
  | cons c cs ih =>
    rw [resolve]
    split_ifs
    · exact ih _ _
    · exact prefix_rfl
    · exact (prefix_append _ _).trans (ih _ _)

theorem prefix_dropped (kept dropped cs : List α) :
    dropped <+: (resolve hits clash kept dropped cs).dropped := by
  induction cs generalizing kept dropped with
  | nil => exact prefix_rfl
  | cons c cs ih =>
    rw [resolve]
    split_ifs
    · exact (prefix_append _ _).trans (ih _ _)
    · exact prefix_rfl
    · exact ih _ _

variable (hits clash) in
/-- **What a run took is what it kept and what it dropped**, and a run without a clash took
everything. -/
theorem exists_taken (kept dropped cs : List α) : ∃ taken rest, cs = taken ++ rest ∧
      ((resolve hits clash kept dropped cs).kept ++
        (resolve hits clash kept dropped cs).dropped).Perm (kept ++ dropped ++ taken) ∧
      ((resolve hits clash kept dropped cs).conflict = false → rest = []) := by
  induction cs generalizing kept dropped with
  | nil => exact ⟨[], [], rfl, by simp [resolve], fun _ => rfl⟩
  | cons c cs ih =>
    by_cases hhit : ∃ k ∈ kept, hits k c
    · rw [resolve_cons_of_hit hhit]
      obtain ⟨taken, rest, rfl, hperm, hrest⟩ := ih kept (dropped ++ [c])
      exact ⟨c :: taken, rest, rfl, by simpa using hperm, hrest⟩
    · by_cases hclash : ∃ k ∈ kept, clash k c
      · rw [resolve_cons_of_clash hhit hclash]
        exact ⟨[], c :: cs, rfl, by simp, fun h => by cases h⟩
      · rw [resolve_cons_of_free hhit hclash]
        obtain ⟨taken, rest, rfl, hperm, hrest⟩ := ih (kept ++ [c]) dropped
        refine ⟨c :: taken, rest, rfl, hperm.trans ?_, hrest⟩
        have hswap : ([c] ++ (dropped ++ taken)).Perm (dropped ++ ([c] ++ taken)) := by
          rw [← append_assoc, ← append_assoc]
          exact perm_append_comm.append_right taken
        simpa [append_assoc] using hswap.append_left kept

/-- **A dropped candidate was hit by a kept one in front of it.** -/
theorem hit_of_dropped {kept dropped done cs : List α} (hkept : ∀ k ∈ kept, k ∈ done)
    (hdrop : ∀ d ∈ dropped, ∃ k ∈ kept, hits k d ∧ [k, d].Sublist done) :
    ∀ d ∈ (resolve hits clash kept dropped cs).dropped,
      ∃ k ∈ (resolve hits clash kept dropped cs).kept, hits k d ∧ [k, d].Sublist (done ++ cs) := by
  induction cs generalizing kept dropped done with
  | nil => simpa [resolve] using hdrop
  | cons c cs ih =>
    have hassoc : done ++ c :: cs = (done ++ [c]) ++ cs := by simp
    by_cases hhit : ∃ k ∈ kept, hits k c
    · rw [resolve_cons_of_hit hhit, hassoc]
      apply ih
      · exact fun k hk => mem_append_left _ (hkept k hk)
      · intro d hd
        rcases mem_append.mp hd with hd | hd
        · obtain ⟨k, hk, hkd, hsub⟩ := hdrop d hd
          exact ⟨k, hk, hkd, hsub.trans (sublist_append_left _ _)⟩
        · obtain rfl := mem_singleton.mp hd
          obtain ⟨k, hk, hkd⟩ := hhit
          have hk' : [k].Sublist done := singleton_sublist.mpr (hkept k hk)
          exact ⟨k, hk, hkd, hk'.append (Sublist.refl [d])⟩
    · by_cases hclash : ∃ k ∈ kept, clash k c
      · rw [resolve_cons_of_clash hhit hclash]
        intro d hd
        obtain ⟨k, hk, hkd, hsub⟩ := hdrop d hd
        exact ⟨k, hk, hkd, hsub.trans (sublist_append_left _ _)⟩
      · rw [resolve_cons_of_free hhit hclash, hassoc]
        apply ih
        · intro k hk
          rcases mem_append.mp hk with hk | hk
          · exact mem_append_left _ (hkept k hk)
          · exact mem_append_right _ hk
        · intro d hd
          obtain ⟨k, hk, hkd, hsub⟩ := hdrop d hd
          exact ⟨k, mem_append_left _ hk, hkd, hsub.trans (sublist_append_left _ _)⟩

/-! ## When a run ends early -/

theorem prefix_survivors (kept cs : List α) : kept <+: survivors hits kept cs := by
  induction cs generalizing kept with
  | nil => exact prefix_rfl
  | cons c cs ih =>
    rw [survivors]
    split_ifs
    · exact ih _
    · exact (prefix_append _ _).trans (ih _)

variable (hits) in
theorem survivors_sublist (kept cs : List α) : (survivors hits kept cs).Sublist (kept ++ cs) := by
  induction cs generalizing kept with
  | nil => simp [survivors]
  | cons c cs ih =>
    rw [survivors]
    split_ifs
    · exact (ih kept).trans (Sublist.append_left (sublist_cons_self c cs) kept)
    · simpa using ih (kept ++ [c])

/-- **A run ends early iff two survivors clash.** -/
theorem resolve_conflict_iff (hkept : kept.Pairwise fun a b => ¬ clash a b) :
    (resolve hits clash kept dropped cs).conflict = false ↔
      (survivors hits kept cs).Pairwise fun a b => ¬ clash a b := by
  induction cs generalizing kept dropped with
  | nil => exact iff_of_true rfl hkept
  | cons c cs ih =>
    rw [survivors]
    by_cases hhit : ∃ k ∈ kept, hits k c
    · rw [resolve_cons_of_hit hhit, if_pos hhit]
      exact ih hkept
    · rw [if_neg hhit]
      by_cases hclash : ∃ k ∈ kept, clash k c
      · rw [resolve_cons_of_clash hhit hclash]
        refine iff_of_false Bool.noConfusion fun h => ?_
        obtain ⟨k, hk, hkc⟩ := hclash
        have hsub : (kept ++ [c]).Sublist (survivors hits (kept ++ [c]) cs) :=
          (prefix_survivors _ _).sublist
        exact (pairwise_append.mp (h.sublist hsub)).2.2 k hk c (by simp) hkc
      · rw [resolve_cons_of_free hhit hclash]
        apply ih
        refine pairwise_append.mpr ⟨hkept, pairwise_singleton _ _, ?_⟩
        intro k hk d hd
        obtain rfl := mem_singleton.mp hd
        exact fun h => hclash ⟨k, hk, h⟩

/-- A run that does not end early keeps the survivors. -/
theorem kept_of_no_conflict (h : (resolve hits clash kept dropped cs).conflict = false) :
    (resolve hits clash kept dropped cs).kept = survivors hits kept cs := by
  induction cs generalizing kept dropped with
  | nil => rfl
  | cons c cs ih =>
    rw [survivors]
    by_cases hhit : ∃ k ∈ kept, hits k c
    · rw [resolve_cons_of_hit hhit] at h ⊢
      rw [if_pos hhit]
      exact ih h
    · rw [if_neg hhit]
      by_cases hclash : ∃ k ∈ kept, clash k c
      · rw [resolve_cons_of_clash hhit hclash] at h
        cases h
      · rw [resolve_cons_of_free hhit hclash] at h ⊢
        exact ih h

/-- A run that ends early has kept a candidate. -/
theorem kept_ne_nil_of_conflict (h : (resolve hits clash kept dropped cs).conflict = true) :
    (resolve hits clash kept dropped cs).kept ≠ [] := by
  induction cs generalizing kept dropped with
  | nil => cases h
  | cons c cs ih =>
    by_cases hhit : ∃ k ∈ kept, hits k c
    · rw [resolve_cons_of_hit hhit] at h ⊢
      exact ih h
    · by_cases hclash : ∃ k ∈ kept, clash k c
      · rw [resolve_cons_of_clash hhit hclash]
        obtain ⟨k, hk, -⟩ := hclash
        exact ne_nil_of_mem hk
      · rw [resolve_cons_of_free hhit hclash] at h ⊢
        exact ih h

/-! ## Renamed candidates -/

/-- A map that keeps hits and clashes keeps the run. -/
theorem resolve_map {β : Type u} {hits' clash' : β → β → Prop} [DecidableRel hits']
    [DecidableRel clash'] (f : α → β) (hhits : ∀ a b, hits' (f a) (f b) ↔ hits a b)
    (hclash : ∀ a b, clash' (f a) (f b) ↔ clash a b) (kept dropped cs : List α) :
    resolve hits' clash' (kept.map f) (dropped.map f) (cs.map f) =
      ⟨(resolve hits clash kept dropped cs).conflict,
        (resolve hits clash kept dropped cs).kept.map f,
        (resolve hits clash kept dropped cs).dropped.map f⟩ := by
  induction cs generalizing kept dropped with
  | nil => rfl
  | cons c cs ih =>
    have hhit : (∃ k ∈ kept.map f, hits' k (f c)) ↔ ∃ k ∈ kept, hits k c := by simp [hhits]
    have hends : (∃ k ∈ kept.map f, clash' k (f c)) ↔ ∃ k ∈ kept, clash k c := by simp [hclash]
    rw [map_cons, resolve, resolve, if_congr hhit rfl rfl, if_congr hends rfl rfl]
    have hdrop := ih kept (dropped ++ [c])
    have hkeep := ih (kept ++ [c]) dropped
    rw [map_append] at hdrop hkeep
    split_ifs
    · exact hdrop
    · rfl
    · exact hkeep

end OvcReplay.Lists
