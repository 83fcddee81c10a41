import OvcReplay.Python.Sorted
import OvcReplay.Python.Fallible
import Mathlib.Data.List.Forall2

/-! # Sorted lists that are written element by element

The elements of a list are sorted by a key and then written one by one. Where elements are written
alike exactly when they are related, two lists are written alike exactly when one is related,
element by element, to a permutation of the other: the order in which the elements came is gone, and
nothing else. -/

namespace OvcReplay.Lists

open List Python

variable {α τ κ : Type} {S : α → α → Prop} {W : α → τ → Prop} {xs ys : List α} {js js' : List τ}

/-- Lists that are written element by element. -/
theorem written_eq_iff (hW : ∀ a ∈ xs, ∀ b ∈ ys, ∀ j j', W a j → W b j' → (j = j' ↔ S a b))
    (hx : Forall₂ W xs js) (hy : Forall₂ W ys js') :
    js = js' ↔ Forall₂ S xs ys := by
  induction hx generalizing ys js' with
  | nil =>
    cases hy with
    | nil => exact iff_of_true rfl .nil
    | cons _ _ => exact iff_of_false nofun nofun
  | @cons x j xs js hone _ ih =>
    cases hy with
    | nil => exact iff_of_false nofun nofun
    | @cons y j' ys js' hone' hrest' =>
      rw [List.cons.injEq, forall₂_cons,
        hW x mem_cons_self y mem_cons_self j j' hone hone']
      refine and_congr_right fun _ => ih (fun a ha b hb => ?_) hrest'
      exact hW a (mem_cons_of_mem _ ha) b (mem_cons_of_mem _ hb)

/-- What follows for the elements that are there. -/
theorem forall₂_of_mem {R R' : α → τ → Prop} (hx : Forall₂ R xs js)
    (h : ∀ a ∈ xs, ∀ j, R a j → R' a j) : Forall₂ R' xs js := by
  induction hx with
  | nil => exact .nil
  | cons hone _ ih =>
    refine .cons (h _ mem_cons_self _ hone) (ih fun a ha => ?_)
    exact h a (mem_cons_of_mem _ ha)

/-- A permutation of the first list goes over to one of the second. -/
theorem exists_perm_right {R : α → τ → Prop} {zs : List α} (h : Forall₂ R xs js)
    (hperm : xs.Perm zs) : ∃ us, js.Perm us ∧ Forall₂ R zs us := by
  have hcomp : Relation.Comp (Forall₂ (flip R)) Perm js zs := ⟨xs, h.flip, hperm⟩
  rw [forall₂_comp_perm_eq_perm_comp_forall₂] at hcomp
  obtain ⟨us, hus, hzs⟩ := hcomp
  exact ⟨us, hus, hzs.flip⟩

/-- A permutation of the second list goes over to one of the first. -/
theorem exists_perm_left {R : α → τ → Prop} {ks : List τ} (h : Forall₂ R xs js)
    (hperm : js.Perm ks) : ∃ us, xs.Perm us ∧ Forall₂ R us ks := by
  obtain ⟨us, hus, hzs⟩ := exists_perm_right h.flip hperm
  exact ⟨us, hus, hzs.flip⟩

variable [LinearOrder κ] {key : α → κ}

/-- Related lists are sorted alike. -/
theorem pairwise_of_related (hkey : Forall₂ (fun a b => key a = key b) xs ys)
    (h : ys.Pairwise fun a b => key a ≤ key b) : xs.Pairwise fun a b => key a ≤ key b := by
  have hmap : xs.map key = ys.map key := by
    rw [← forall₂_eq_eq_eq, forall₂_map_left_iff, forall₂_map_right_iff]
    exact hkey
  rw [← pairwise_map (R := (· ≤ ·))] at h ⊢
  rw [hmap]
  exact h

/-- **Sorted lists are written alike exactly when the lists are related up to a permutation.** -/
theorem sorted_written_eq_iff (hinj : ∀ a ∈ xs, ∀ b ∈ xs, key a = key b → a = b)
    (hkey : ∀ a ∈ xs, ∀ b ∈ ys, S a b → key a = key b)
    (hW : ∀ a ∈ xs, ∀ b ∈ ys, ∀ j j', W a j → W b j' → (j = j' ↔ S a b))
    (hx : Forall₂ W (sortedBy key xs) js) (hy : Forall₂ W (sortedBy key ys) js') :
    js = js' ↔ ∃ zs, xs.Perm zs ∧ Forall₂ S zs ys := by
  rw [written_eq_iff (fun a ha b hb => hW a (mem_sortedBy.mp ha) b (mem_sortedBy.mp hb)) hx hy]
  constructor
  · intro hsort
    obtain ⟨zs, hzs, hall⟩ := exists_perm_left hsort (sortedBy_perm key ys)
    exact ⟨zs, (sortedBy_perm key xs).symm.trans hzs, hall⟩
  · rintro ⟨zs, hzs, hall⟩
    obtain ⟨us, hus, hsort⟩ := exists_perm_left hall (sortedBy_perm key ys).symm
    have hperm : xs.Perm us := hzs.trans hus
    -- the permutation that goes with the sorted list is itself sorted
    have hkeys : Forall₂ (fun a b => key a = key b) us (sortedBy key ys) := by
      refine (forall₂_iff_zip.mpr ⟨hsort.length_eq, fun {a b} hab => ?_⟩)
      have hmem := of_mem_zip hab
      exact hkey a (hperm.mem_iff.mpr hmem.1) b (mem_sortedBy.mp hmem.2)
        (forall₂_iff_zip.mp hsort |>.2 hab)
    have heq : sortedBy key xs = us := by
      refine eq_of_perm_of_pairwise ?_ ((sortedBy_perm key xs).trans hperm)
        (sortedBy_pairwise key xs) (pairwise_of_related hkeys (sortedBy_pairwise key ys))
      intro a ha b hb
      exact hinj a (mem_sortedBy.mp ha) b (mem_sortedBy.mp hb)
    rw [heq]
    exact hsort

end OvcReplay.Lists
