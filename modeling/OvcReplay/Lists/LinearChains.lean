import Mathlib

/-! # Linear chains of corrections

A relation by which every element of a list corrects one element at most, and an earlier one. One
element of the list alone is not corrected when and only when its elements form one chain, in which
each corrects the next. -/

namespace OvcReplay.Lists

open List

universe u v

variable {α : Type u} {τ : Type v} [LinearOrder τ] {corrects : α → α → Prop} {time : α → τ}
  {xs : List α} {tip : α}

/-- The elements form one chain, in which each corrects the next. -/
def Linear (corrects : α → α → Prop) (xs : List α) : Prop :=
  ∃ ys : List α, ys.Perm xs ∧ ys.IsChain corrects

/-- The element is not corrected within the list. -/
def IsTip (corrects : α → α → Prop) (xs : List α) (x : α) : Prop :=
  x ∈ xs ∧ ∀ y ∈ xs, ¬ corrects y x

/-- Some element is not corrected. -/
theorem exists_isTip (hne : xs ≠ [])
    (htime : ∀ x ∈ xs, ∀ y ∈ xs, corrects x y → time y < time x) : ∃ x, IsTip corrects xs x := by
  cases hmax : xs.argmax time with
  | none => exact absurd (argmax_eq_none.mp hmax) hne
  | some m =>
    have hm := argmax_mem hmax
    exact ⟨m, hm, fun y hy h => absurd (htime y hy m hm h) (not_lt_of_mem_argmax hy hmax)⟩

/-- **The corrections that lead to one tip form a chain from it.** -/
theorem chain_of_isTip (hnd : xs.Nodup)
    (hfunc : ∀ x ∈ xs, ∀ y ∈ xs, ∀ z ∈ xs, corrects x y → corrects x z → y = z)
    (htime : ∀ x ∈ xs, ∀ y ∈ xs, corrects x y → time y < time x) (htip : IsTip corrects xs tip)
    (honly : ∀ x, IsTip corrects xs x → x = tip) :
    ∃ rest, (tip :: rest).Perm xs ∧ (tip :: rest).IsChain corrects := by
  induction hlen : xs.length generalizing xs tip with
  | zero => exact absurd htip.1 (by simp [length_eq_zero_iff.mp hlen])
  | succ n ih =>
    classical
    have hperm : (tip :: xs.erase tip).Perm xs := (perm_cons_erase htip.1).symm
    have hrest : ∀ x ∈ xs.erase tip, x ∈ xs ∧ x ≠ tip := fun x hx =>
      ⟨mem_of_mem_erase hx, (hnd.mem_erase_iff.mp hx).1⟩
    by_cases hnil : xs.erase tip = []
    · exact ⟨[], hnil ▸ hperm, .singleton tip⟩
    -- an element that only the tip corrects
    have hnext : ∀ x, IsTip corrects (xs.erase tip) x → corrects tip x := by
      intro x hx
      obtain ⟨hmem, hne⟩ := hrest x hx.1
      by_contra hnot
      refine hne (honly x ⟨hmem, fun y hy h => ?_⟩)
      by_cases heq : y = tip
      · exact hnot (heq ▸ h)
      · exact hx.2 y (hnd.mem_erase_iff.mpr ⟨heq, hy⟩) h
    have htime' : ∀ x ∈ xs.erase tip, ∀ y ∈ xs.erase tip, corrects x y → time y < time x :=
      fun x hx y hy => htime x (hrest x hx).1 y (hrest y hy).1
    obtain ⟨next, hnextTip⟩ := exists_isTip hnil htime'
    obtain ⟨rest, hrestPerm, hchain⟩ := ih (hnd.erase tip)
      (fun x hx y hy z hz => hfunc x (hrest x hx).1 y (hrest y hy).1 z (hrest z hz).1) htime'
      hnextTip
      (fun x hx => hfunc tip htip.1 x (hrest x hx.1).1 next (hrest next hnextTip.1).1
        (hnext x hx) (hnext next hnextTip))
      (by rw [length_erase_of_mem htip.1, hlen, Nat.add_sub_cancel])
    exact ⟨next :: rest, (hrestPerm.cons tip).trans hperm,
      .cons_cons (hnext next hnextTip) hchain⟩

/-- In a chain the times fall. -/
theorem falls_of_chain (htime : ∀ x ∈ xs, ∀ y ∈ xs, corrects x y → time y < time x)
    (hchain : xs.IsChain corrects) : xs.Pairwise fun x y => time y < time x := by
  have htrans : IsTrans α fun x y => time y < time x := ⟨fun _ _ _ hxy hyz => hyz.trans hxy⟩
  rw [← isChain_iff_pairwise]
  induction hchain with
  | nil => exact .nil
  | singleton x => exact .singleton x
  | cons_cons h _ ih =>
    refine .cons_cons (htime _ mem_cons_self _ (mem_cons_of_mem _ mem_cons_self) h) (ih ?_)
    exact fun x hx y hy => htime x (mem_cons_of_mem _ hx) y (mem_cons_of_mem _ hy)

/-- In a chain every element but the first is corrected. -/
theorem exists_corrects_of_chain {rest : List α} (hchain : (tip :: rest).IsChain corrects) :
    ∀ x ∈ rest, ∃ y ∈ tip :: rest, corrects y x := by
  induction rest generalizing tip with
  | nil => exact nofun
  | cons next rest ih =>
    obtain ⟨hnext, hrest⟩ := isChain_cons_cons.mp hchain
    intro x hx
    rcases mem_cons.mp hx with rfl | hx
    · exact ⟨tip, mem_cons_self, hnext⟩
    · obtain ⟨y, hy, h⟩ := ih hrest x hx
      exact ⟨y, mem_cons_of_mem _ hy, h⟩

/-- **One element alone is not corrected when and only when the elements form one chain.** -/
theorem linear_iff (hne : xs ≠ []) (hnd : xs.Nodup)
    (hfunc : ∀ x ∈ xs, ∀ y ∈ xs, ∀ z ∈ xs, corrects x y → corrects x z → y = z)
    (htime : ∀ x ∈ xs, ∀ y ∈ xs, corrects x y → time y < time x) :
    Linear corrects xs ↔ ∃ tip, ∀ x, IsTip corrects xs x ↔ x = tip := by
  constructor
  · rintro ⟨ys, hperm, hchain⟩
    have htime' : ∀ x ∈ ys, ∀ y ∈ ys, corrects x y → time y < time x :=
      fun x hx y hy => htime x (hperm.mem_iff.mp hx) y (hperm.mem_iff.mp hy)
    cases ys with
    | nil => exact absurd hperm.nil_eq.symm hne
    | cons tip rest =>
      have hfalls := falls_of_chain htime' hchain
      refine ⟨tip, fun x => ⟨fun ⟨hx, hnot⟩ => ?_, ?_⟩⟩
      · rcases mem_cons.mp (hperm.mem_iff.mpr hx) with rfl | hx
        · rfl
        · obtain ⟨y, hy, h⟩ := exists_corrects_of_chain hchain x hx
          exact absurd h (hnot y (hperm.mem_iff.mp hy))
      · rintro rfl
        refine ⟨hperm.mem_iff.mp mem_cons_self, fun y hy h => ?_⟩
        have hlt := htime y hy x (hperm.mem_iff.mp mem_cons_self) h
        rcases mem_cons.mp (hperm.mem_iff.mpr hy) with rfl | hy
        · exact lt_irrefl _ hlt
        · exact hlt.not_gt (rel_of_pairwise_cons hfalls hy)
  · rintro ⟨tip, htip⟩
    obtain ⟨rest, hperm, hchain⟩ := chain_of_isTip hnd hfunc htime
      ((htip tip).mpr rfl) fun x => (htip x).mp
    exact ⟨tip :: rest, hperm, hchain⟩

/-- From the first element of a chain every element is reached. -/
theorem reaches_of_chain {rest : List α} (hchain : (tip :: rest).IsChain corrects)
    (hrest : ∀ x ∈ rest, x ∈ xs) :
    ∀ x ∈ tip :: rest, Relation.ReflTransGen (fun x y => y ∈ xs ∧ corrects x y) tip x := by
  induction rest generalizing tip with
  | nil =>
    intro x hx
    rw [mem_singleton.mp hx]
  | cons next rest ih =>
    obtain ⟨hnext, hchain⟩ := isChain_cons_cons.mp hchain
    obtain ⟨hmem, hrest⟩ := forall_mem_cons.mp hrest
    intro x hx
    rcases mem_cons.mp hx with rfl | hx
    · exact .refl
    · exact .head ⟨hmem, hnext⟩ (ih hchain hrest x hx)

end OvcReplay.Lists
