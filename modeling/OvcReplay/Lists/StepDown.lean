import Mathlib

/-! # Step-down maxima

Indices with observed statistics, and draws of reference statistics. The p value of a set counts
the draws whose maximum over the set is at least the observed one. Where the observed statistics
fall along a list, the running maximum of the p values of its tails is, at every index, the greatest
p value of a set with this index. -/

namespace OvcReplay.Lists.StepDown

open List

universe u v

variable {ι : Type u} {α : Type v} [LinearOrder α]

/-- The maximum over the set, and `⊥` over the empty one. -/
def peak (f : ι → α) (S : Finset ι) : WithBot α := S.sup fun i => (f i : WithBot α)

variable (observed : ι → α) (draws : List (ι → α))

/-- The number of draws whose maximum over the set is at least the observed one. -/
def exceedances (S : Finset ι) : Nat :=
  draws.countP fun draw => decide (peak observed S ≤ peak draw S)

/-- The p value of a set. -/
def pValue (S : Finset ι) : ℚ := (exceedances observed draws S + 1) / (draws.length + 1)

/-- The p values of the sets within `T` that have the index. -/
def pValuesWith (T : Finset ι) (i : ι) : Set ℚ :=
  {p | ∃ S, S ⊆ T ∧ i ∈ S ∧ pValue observed draws S = p}

variable {observed draws} {S T : Finset ι} {i j : ι}

theorem peak_mono (f : ι → α) (h : S ⊆ T) : peak f S ≤ peak f T := Finset.sup_mono h

variable {f : ι → α}

theorem le_peak (hi : i ∈ S) : (f i : WithBot α) ≤ peak f S :=
  Finset.le_sup (f := fun i => (f i : WithBot α)) hi

theorem coe_le_peak {a : α} : (a : WithBot α) ≤ peak f S ↔ ∃ i ∈ S, a ≤ f i := by
  rw [peak, Finset.le_sup_iff (WithBot.bot_lt_coe a)]
  simp only [WithBot.coe_le_coe]

theorem peak_eq (hi : i ∈ S) (h : ∀ j ∈ S, f j ≤ f i) : peak f S = f i :=
  le_antisymm (Finset.sup_le fun j hj => WithBot.coe_le_coe.mpr (h j hj)) (le_peak hi)

/-- A larger set without a larger observed statistic has no smaller p value. -/
theorem pValue_mono (hST : S ⊆ T) (h : peak observed T ≤ peak observed S) :
    pValue observed draws S ≤ pValue observed draws T := by
  have hcount : exceedances observed draws S ≤ exceedances observed draws T := by
    refine countP_mono_left fun draw _ hdraw => ?_
    rw [decide_eq_true_eq] at hdraw ⊢
    exact (h.trans hdraw).trans (peak_mono draw hST)
  unfold pValue
  gcongr

theorem pValue_pos : 0 < pValue observed draws S := by
  unfold pValue
  positivity

theorem pValue_le_one : pValue observed draws S ≤ 1 := by
  have hcount : exceedances observed draws S ≤ draws.length := countP_le_length
  unfold pValue
  rw [div_le_one (by positivity)]
  gcongr

/-! ## Names -/

variable {κ : Type u} [DecidableEq κ] {rename : ι → κ} {observed' : κ → α}
  {draws' draws'' : List (κ → α)}

theorem peak_image {f' : κ → α} (h : ∀ i ∈ S, f' (rename i) = f i) :
    peak f' (S.image rename) = peak f S := by
  rw [peak, Finset.sup_image]
  exact Finset.sup_congr rfl fun i hi => congrArg _ (h i hi)

/-- **The p values do not depend on the names** of the indices and on the order of the draws. -/
theorem pValuesWith_image (hinj : rename.Injective)
    (hobs : ∀ i ∈ T, observed' (rename i) = observed i) (hperm : draws'.Perm draws'')
    (hdraws : Forall₂ (fun draw' draw => ∀ i ∈ T, draw' (rename i) = draw i) draws'' draws)
    (i : ι) :
    pValuesWith observed' draws' (T.image rename) (rename i) = pValuesWith observed draws T i := by
  have hval : ∀ S ⊆ T, pValue observed' draws' (S.image rename) = pValue observed draws S := by
    intro S hS
    have hcount : exceedances observed' draws'' (S.image rename) = exceedances observed draws S := by
      simp only [exceedances, peak_image fun i hi => hobs i (hS hi)]
      clear hperm
      induction hdraws with
      | nil => rfl
      | cons hdraw _ ih =>
        rw [countP_cons, countP_cons, ih, peak_image fun i hi => hdraw i (hS hi)]
    rw [pValue, exceedances, hperm.countP_eq, hperm.length_eq, hdraws.length_eq, ← exceedances,
      hcount, pValue]
  ext p
  constructor
  · rintro ⟨S', hS', hi, rfl⟩
    obtain ⟨S, hS, rfl⟩ := Finset.subset_image_iff.mp hS'
    exact ⟨S, hS, hinj.mem_finset_image.mp hi, (hval S hS).symm⟩
  · rintro ⟨S, hS, hi, rfl⟩
    exact ⟨_, Finset.image_subset_image hS, Finset.mem_image_of_mem rename hi, hval S hS⟩

/-! ## The running maximum -/

variable [DecidableEq ι]

/-- The greatest p value with an index does not fall with its observed statistic. -/
theorem greatest_anti {p q : ℚ} (hp : IsGreatest (pValuesWith observed draws T i) p)
    (hq : IsGreatest (pValuesWith observed draws T j) q) (hi : i ∈ T)
    (h : observed i ≤ observed j) : q ≤ p := by
  obtain ⟨S, hS, hj, rfl⟩ := hq.1
  -- the set with the other index too has the same maximum
  have hpeak : peak observed (insert i S) ≤ peak observed S := by
    rw [peak, Finset.sup_insert]
    exact sup_le ((WithBot.coe_le_coe.mpr h).trans (le_peak hj)) (le_refl _)
  refine (pValue_mono (Finset.subset_insert i S) hpeak).trans (hp.2 ?_)
  exact ⟨_, Finset.insert_subset hi hS, Finset.mem_insert_self i S, rfl⟩

variable (observed draws) in
/-- The running maximum of the p values of the tails. -/
def runningMax : (running : ℚ) → List ι → List (ι × ℚ)
  | _, [] => []
  | running, i :: rest =>
    let running := max running (pValue observed draws (i :: rest).toFinset)
    (i, running) :: runningMax running rest

theorem map_fst_runningMax (running : ℚ) (xs : List ι) :
    (runningMax observed draws running xs).map Prod.fst = xs := by
  induction xs generalizing running with
  | nil => rfl
  | cons x xs ih => rw [runningMax, map_cons, ih]

/-- **The running maximum is the greatest p value** of the sets with the index. -/
theorem greatest_of_mem_runningMax {xs : List ι}
    (hsort : xs.Pairwise fun i j => observed j ≤ observed i) {running q : ℚ}
    (h : (i, q) ∈ runningMax observed draws running xs) :
    ∃ p, IsGreatest (pValuesWith observed draws xs.toFinset i) p ∧ q = max running p := by
  induction xs generalizing running with
  | nil => cases h
  | cons x xs ih =>
    obtain ⟨hx, hsort⟩ := pairwise_cons.mp hsort
    -- a set with the first index has its observed statistic as the maximum
    have hfst : ∀ S ⊆ (x :: xs).toFinset, x ∈ S →
        pValue observed draws S ≤ pValue observed draws (x :: xs).toFinset := by
      intro S hS hmem
      refine pValue_mono hS ?_
      rw [peak_eq (mem_toFinset.mpr mem_cons_self)]
      · exact le_peak hmem
      · intro j hj
        rcases mem_cons.mp (mem_toFinset.mp hj) with rfl | hj
        · exact le_refl _
        · exact hx j hj
    rw [runningMax, mem_cons] at h
    rcases h with heq | h
    · obtain ⟨rfl, rfl⟩ := Prod.mk.inj heq
      refine ⟨_, ⟨⟨_, subset_rfl, mem_toFinset.mpr mem_cons_self, rfl⟩, ?_⟩, rfl⟩
      rintro _ ⟨S, hS, hmem, rfl⟩
      exact hfst S hS hmem
    · obtain ⟨p, ⟨⟨S, hS, hi, rfl⟩, hp⟩, rfl⟩ := ih hsort h
      have hxs : xs.toFinset ⊆ (x :: xs).toFinset := fun _ hy =>
        mem_toFinset.mpr (mem_cons_of_mem _ (mem_toFinset.mp hy))
      refine ⟨max (pValue observed draws (x :: xs).toFinset) (pValue observed draws S),
        ⟨?_, ?_⟩, max_assoc _ _ _⟩
      · rcases max_choice (pValue observed draws (x :: xs).toFinset) (pValue observed draws S) with
          hmax | hmax
        · exact ⟨_, subset_rfl, hxs (hS hi), hmax.symm⟩
        · exact ⟨S, hS.trans hxs, hi, hmax.symm⟩
      · rintro _ ⟨S', hS', hi', rfl⟩
        by_cases hmem : x ∈ S'
        · exact (hfst S' hS' hmem).trans (le_max_left _ _)
        · refine (hp ⟨S', fun y hy => ?_, hi', rfl⟩).trans (le_max_right _ _)
          rcases mem_cons.mp (mem_toFinset.mp (hS' hy)) with rfl | hy'
          · exact absurd hy hmem
          · exact mem_toFinset.mpr hy'

end OvcReplay.Lists.StepDown
