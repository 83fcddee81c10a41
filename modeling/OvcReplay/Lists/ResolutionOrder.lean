import OvcReplay.Lists.Resolution

/-! # When the order of the candidates does not matter

Candidates come in classes, and those of one class do not clash. `OrderFree` says of classes taken
one after the other that the order within each does not matter: no candidate hits another of its
class, up to the first class of which a candidate ends the run, and there every candidate does.
`resolve_perm` and `exists_order_matters` say that this is enough and that nothing less is. -/

namespace OvcReplay.Lists

open List Python

universe u

variable {α : Type u}

section Classes

variable (hits clash : α → α → Prop)

/-- A kept candidate hits `c`. -/
def HitBy (kept : List α) (c : α) : Prop := ∃ k ∈ kept, hits k c

/-- Taken next, `c` ends the run. -/
def Ends (kept : List α) (c : α) : Prop := ¬ HitBy hits kept c ∧ ∃ k ∈ kept, clash k c

instance [DecidableRel hits] (kept : List α) : DecidablePred (HitBy hits kept) :=
  fun _ => inferInstanceAs (Decidable (∃ _ ∈ _, _))

variable [DecidableRel hits]

/-- **The order within the classes does not matter.** -/
def OrderFree (kept : List α) : List (List α) → Prop
  | [] => True
  | g :: gs =>
    ((∃ c ∈ g, Ends hits clash kept c) ∧ ∀ c ∈ g, Ends hits clash kept c) ∨
    ((∀ c ∈ g, ¬ Ends hits clash kept c) ∧
      (∀ c ∈ g, ∀ d ∈ g, c ≠ d → ¬ HitBy hits kept c → ¬ HitBy hits kept d → ¬ hits c d) ∧
      OrderFree (kept ++ g.filter fun c => ¬ HitBy hits kept c) gs)

end Classes

variable {hits clash : α → α → Prop} [DecidableRel hits] [DecidableRel clash]

variable {kept kept' : List α}

omit [DecidableRel hits] in
theorem hitBy_perm (h : kept.Perm kept') (c : α) : HitBy hits kept c ↔ HitBy hits kept' c := by
  simp only [HitBy, h.mem_iff]

omit [DecidableRel hits] [DecidableRel clash] in
theorem ends_perm (h : kept.Perm kept') (c : α) :
    Ends hits clash kept c ↔ Ends hits clash kept' c := by
  simp only [Ends, HitBy, h.mem_iff]

omit [DecidableRel hits] [DecidableRel clash] in
/-- A candidate that does not clash with the one that is kept next still does not end the run. -/
theorem not_ends_append {kept : List α} {x y : α} (hy : ¬ Ends hits clash kept y)
    (hxy : ¬ clash x y) : ¬ Ends hits clash (kept ++ [x]) y := by
  rintro ⟨hyhit, k, hk, hky⟩
  rcases mem_append.mp hk with hk | hk
  · refine hy ⟨fun h => hyhit ?_, k, hk, hky⟩
    obtain ⟨l, hl, hly⟩ := h
    exact ⟨l, mem_append_left _ hl, hly⟩
  · obtain rfl := mem_singleton.mp hk
    exact hxy hky

omit [DecidableRel clash] in
omit [DecidableRel clash] in
/-- Classes of one candidate each leave no order to choose. -/
theorem orderFree_of_subsingleton {gs : List (List α)}
    (hgs : ∀ g ∈ gs, ∀ c ∈ g, ∀ d ∈ g, c = d) (kept : List α) : OrderFree hits clash kept gs := by
  induction gs generalizing kept with
  | nil => exact trivial
  | cons g gs ih =>
    rw [forall_mem_cons] at hgs
    by_cases hends : ∃ c ∈ g, Ends hits clash kept c
    · refine .inl ⟨hends, fun d hd => ?_⟩
      obtain ⟨c, hc, h⟩ := hends
      rwa [hgs.1 d hd c hc]
    · refine .inr ⟨fun c hc h => hends ⟨c, hc, h⟩, ?_, ih hgs.2 _⟩
      intro c hc d hd hne
      exact absurd (hgs.1 c hc d hd) hne

/-- **A sorted list is its classes, one after the other.** -/
theorem flatten_classes {κ : Type*} [LinearOrder κ] {rank : α → κ} {ranks : List κ}
    (hranks : ranks.Pairwise fun p q => p < q) {xs : List α}
    (hxs : xs.Pairwise fun a b => rank a ≤ rank b) (hmem : ∀ x ∈ xs, rank x ∈ ranks) :
    (ranks.map fun p => xs.filter fun x => rank x = p).flatten = xs := by
  induction ranks generalizing xs with
  | nil =>
    obtain rfl := eq_nil_iff_forall_not_mem.mpr fun x hx => by simpa using hmem x hx
    rfl
  | cons p ranks ih =>
    obtain ⟨hp, hranks⟩ := pairwise_cons.mp hranks
    have hsplit : (xs.filter fun x => rank x = p) ++ (xs.filter fun x => ¬ rank x = p) = xs := by
      have hle : ∀ x ∈ xs, p ≤ rank x := by
        intro x hx
        rcases mem_cons.mp (hmem x hx) with h | h
        · exact h.ge
        · exact (hp _ h).le
      clear hmem ih
      induction xs with
      | nil => rfl
      | cons x xs ihx =>
        obtain ⟨hx, hxs⟩ := pairwise_cons.mp hxs
        by_cases hrank : rank x = p
        · simpa [hrank] using ihx hxs fun y hy => hle y (mem_cons_of_mem _ hy)
        · have hgt : p < rank x := lt_of_le_of_ne (hle x (by simp)) (Ne.symm hrank)
          have hnone : xs.filter (fun y => rank y = p) = [] :=
            filter_eq_nil_iff.mpr fun y hy => by simpa using (hgt.trans_le (hx y hy)).ne'
          have hall : xs.filter (fun y => ¬ rank y = p) = xs :=
            filter_eq_self.mpr fun y hy => by simpa using (hgt.trans_le (hx y hy)).ne'
          rw [filter_cons_of_neg (by simpa using hrank), hnone,
            filter_cons_of_pos (by simpa using hrank), hall]
          rfl
    have hrest : (ranks.map fun q => xs.filter fun x => rank x = q) =
        ranks.map fun q => (xs.filter fun x => ¬ rank x = p).filter fun x => rank x = q := by
      refine map_congr_left fun q hq => ?_
      rw [filter_filter]
      refine filter_congr fun x _ => ?_
      by_cases hx : rank x = q
      · simp [hx, (hp q hq).ne']
      · simp [hx]
    have hothers : ∀ x ∈ xs.filter fun x => ¬ rank x = p, rank x ∈ ranks := by
      intro x hx
      obtain ⟨hx, hne⟩ := mem_filter.mp hx
      exact (mem_cons.mp (hmem x hx)).resolve_left (by simpa using hne)
    rw [map_cons, flatten_cons, hrest,
      ih hranks (hxs.sublist filter_sublist) hothers, hsplit]

/-! ## One class -/

/-- **A class that hits and ends nothing itself is kept and dropped by what was kept before.** -/
theorem resolve_class {kept dropped g : List α} (hclash : ∀ c ∈ g, ∀ d ∈ g, c ≠ d → ¬ clash c d)
    (hnodup : g.Nodup) (hends : ∀ c ∈ g, ¬ Ends hits clash kept c)
    (hfree : ∀ c ∈ g, ∀ d ∈ g, c ≠ d → ¬ HitBy hits kept c → ¬ HitBy hits kept d → ¬ hits c d) :
    resolve hits clash kept dropped g = ⟨false, kept ++ g.filter fun c => ¬ HitBy hits kept c,
        dropped ++ g.filter fun c => HitBy hits kept c⟩ := by
  -- the part `done` of the class has been taken
  have hpart : ∀ done rest : List α, done ++ rest = g →
      resolve hits clash (kept ++ done.filter fun c => ¬ HitBy hits kept c)
        (dropped ++ done.filter fun c => HitBy hits kept c) rest =
      ⟨false, kept ++ g.filter fun c => ¬ HitBy hits kept c,
        dropped ++ g.filter fun c => HitBy hits kept c⟩ := by
    intro done rest
    induction rest generalizing done with
    | nil =>
      rintro rfl
      simp [resolve]
    | cons c rest ih =>
      intro hg
      have hc : c ∈ g := by simp [← hg]
      have hnew : ∀ d ∈ done, d ∈ g ∧ d ≠ c := by
        intro d hd
        refine ⟨by simp [← hg, hd], ?_⟩
        rintro rfl
        rw [← hg] at hnodup
        exact (nodup_append.mp hnodup).2.2 d hd d (by simp) rfl
      have hih := ih (done ++ [c]) (by simpa using hg)
      by_cases hhit : HitBy hits kept c
      · have hhit' : ∃ k ∈ kept ++ done.filter fun c => ¬ HitBy hits kept c, hits k c := by
          obtain ⟨k, hk, hkc⟩ := hhit
          exact ⟨k, mem_append_left _ hk, hkc⟩
        rw [resolve_cons_of_hit hhit']
        simpa [filter_append, hhit] using hih
      · have hhit' : ¬ ∃ k ∈ kept ++ done.filter fun c => ¬ HitBy hits kept c, hits k c := by
          rintro ⟨k, hk, hkc⟩
          rcases mem_append.mp hk with hk | hk
          · exact hhit ⟨k, hk, hkc⟩
          · obtain ⟨hk, hopen⟩ := mem_filter.mp hk
            obtain ⟨hkg, hne⟩ := hnew k hk
            exact hfree k hkg c hc hne (by simpa using hopen) hhit hkc
        have hclash' : ¬ ∃ k ∈ kept ++ done.filter fun c => ¬ HitBy hits kept c, clash k c := by
          rintro ⟨k, hk, hkc⟩
          rcases mem_append.mp hk with hk | hk
          · exact hends c hc ⟨hhit, k, hk, hkc⟩
          · obtain ⟨hkg, hne⟩ := hnew k (mem_filter.mp hk).1
            exact hclash k hkg c hc hne hkc
        rw [resolve_cons_of_free hhit' hclash']
        simpa [filter_append, hhit] using hih
  simpa using hpart [] g rfl

/-- A class of which every candidate ends the run ends it at once. -/
theorem resolve_class_ends {kept dropped g later : List α} (hne : g ≠ [])
    (hends : ∀ c ∈ g, Ends hits clash kept c) :
    resolve hits clash kept dropped (g ++ later) = ⟨true, kept, dropped⟩ := by
  cases g with
  | nil => exact absurd rfl hne
  | cons c g =>
    obtain ⟨hhit, hclash⟩ := hends c (by simp)
    rw [cons_append]
    exact resolve_cons_of_clash hhit hclash

/-! ## Orders that do not matter -/

/-- Two runs that ended alike, up to order. -/
structure SameUpToOrder (r r' : Resolution α) : Prop where
  conflict : r.conflict = r'.conflict
  kept : ∀ c, c ∈ r.kept ↔ c ∈ r'.kept
  dropped : ∀ c, c ∈ r.dropped ↔ c ∈ r'.dropped

/-- **Classes free of order are resolved alike in every order.** -/
theorem resolve_perm {gs gs' : List (List α)} (hperm : Forall₂ Perm gs gs')
    {kept kept' dropped dropped' : List α} (hkept : kept.Perm kept')
    (hdrop : dropped.Perm dropped') (hclash : ∀ g ∈ gs, ∀ c ∈ g, ∀ d ∈ g, c ≠ d → ¬ clash c d)
    (hnodup : ∀ g ∈ gs, g.Nodup) (hfree : OrderFree hits clash kept gs) :
    SameUpToOrder (resolve hits clash kept dropped gs.flatten)
      (resolve hits clash kept' dropped' gs'.flatten) := by
  induction hperm generalizing kept kept' dropped dropped' with
  | nil => exact ⟨rfl, fun _ => hkept.mem_iff, fun _ => hdrop.mem_iff⟩
  | @cons g g' gs gs' hg _ ih =>
    rw [forall_mem_cons] at hclash hnodup
    rw [flatten_cons, flatten_cons]
    rcases hfree with ⟨⟨c, hc, -⟩, hends⟩ | ⟨hends, hmutual, hfree⟩
    · have hne' : g' ≠ [] := ne_nil_of_mem (hg.mem_iff.mp hc)
      have hends' : ∀ c ∈ g', Ends hits clash kept' c := fun c hc =>
        (ends_perm hkept c).mp (hends c (hg.mem_iff.mpr hc))
      rw [resolve_class_ends (ne_nil_of_mem hc) hends, resolve_class_ends hne' hends']
      exact ⟨rfl, fun _ => hkept.mem_iff, fun _ => hdrop.mem_iff⟩
    · have hclass : resolve hits clash kept dropped g = _ :=
        resolve_class hclash.1 hnodup.1 hends hmutual
      have hclass' : resolve hits clash kept' dropped' g' =
          ⟨false, kept' ++ g'.filter fun c => ¬ HitBy hits kept' c,
            dropped' ++ g'.filter fun c => HitBy hits kept' c⟩ := by
        apply resolve_class
        · exact fun c hc d hd => hclash.1 c (hg.mem_iff.mpr hc) d (hg.mem_iff.mpr hd)
        · exact hg.nodup_iff.mp hnodup.1
        · exact fun c hc => (ends_perm hkept c).not.mp (hends c (hg.mem_iff.mpr hc))
        · intro c hc d hd hne hc' hd'
          exact hmutual c (hg.mem_iff.mpr hc) d (hg.mem_iff.mpr hd) hne
            ((hitBy_perm hkept c).not.mpr hc') ((hitBy_perm hkept d).not.mpr hd')
      rw [resolve_append, hclass, resolve_append, hclass']
      simp only [Bool.false_eq_true, if_false]
      refine ih ?_ ?_ hclash.2 hnodup.2 hfree
      · refine hkept.append ?_
        simp only [← hitBy_perm hkept]
        exact hg.filter _
      · refine hdrop.append ?_
        simp only [← hitBy_perm hkept]
        exact hg.filter _

/-! ## Orders that matter -/

/-- A candidate that a kept one hits is dropped once its class has been taken. -/
theorem mem_dropped_of_hitBy {kept dropped part later : List α} {d : α} (hd : d ∈ part)
    (hhit : HitBy hits kept d) (hends : ∀ x ∈ part, ¬ Ends hits clash kept x)
    (hclash : ∀ x ∈ part, ∀ y ∈ part, x ≠ y → ¬ clash x y) (hnodup : part.Nodup) :
    d ∈ (resolve hits clash kept dropped (part ++ later)).dropped := by
  induction part generalizing kept dropped with
  | nil => exact absurd hd not_mem_nil
  | cons x part ih =>
    obtain ⟨hfresh, hnodup⟩ := nodup_cons.mp hnodup
    rw [cons_append]
    by_cases hx : HitBy hits kept x
    · rw [resolve_cons_of_hit hx]
      rcases mem_cons.mp hd with rfl | hd
      · exact (prefix_dropped _ _ _).subset (by simp)
      · exact ih hd hhit (fun y hy => hends y (mem_cons_of_mem _ hy))
          (fun y hy z hz => hclash y (mem_cons_of_mem _ hy) z (mem_cons_of_mem _ hz))
          hnodup
    · have hfree : ¬ ∃ k ∈ kept, clash k x := fun h => hends x (by simp) ⟨hx, h⟩
      rw [resolve_cons_of_free hx hfree]
      rcases mem_cons.mp hd with rfl | hd
      · exact absurd hhit hx
      · apply ih hd
        · obtain ⟨k, hk, hkd⟩ := hhit
          exact ⟨k, mem_append_left _ hk, hkd⟩
        · intro y hy
          have hne : x ≠ y := fun heq => hfresh (heq ▸ hy)
          exact not_ends_append (hends y (mem_cons_of_mem _ hy))
            (hclash x (by simp) y (mem_cons_of_mem _ hy) hne)
        · exact fun y hy z hz =>
            hclash y (mem_cons_of_mem _ hy) z (mem_cons_of_mem _ hz)
        · exact hnodup

variable (hits clash) in
/-- A run never keeps what it drops. -/
theorem not_mem_kept_of_dropped {kept dropped cs : List α} (hnodup : (kept ++ dropped ++ cs).Nodup)
    {d : α} (hd : d ∈ (resolve hits clash kept dropped cs).dropped) :
    d ∉ (resolve hits clash kept dropped cs).kept := by
  obtain ⟨taken, rest, rfl, hperm, -⟩ := exists_taken hits clash kept dropped cs
  have hsub : (kept ++ dropped ++ taken).Sublist (kept ++ dropped ++ (taken ++ rest)) :=
    Sublist.append_left (sublist_append_left taken rest) _
  have hdisjoint := (nodup_append.mp (hperm.nodup_iff.mpr (hnodup.sublist hsub))).2.2
  exact fun hk => hdisjoint d hk d hd rfl

/-- In each class that holds it, `c` comes first. -/
def Foremost (c : α) (gs : List (List α)) : Prop := ∀ g ∈ gs, c ∈ g → g.head? = some c

omit [DecidableRel hits] [DecidableRel clash] in
/-- The class that comes next repeats no candidate. -/
theorem nodup_class {kept dropped g : List α} {rest : List (List α)}
    (h : (kept ++ dropped ++ (g :: rest).flatten).Nodup) : g.Nodup := by
  rw [flatten_cons] at h
  exact (nodup_append.mp (nodup_append.mp h).2.1).1

/-- A candidate that comes next and does not end the run is kept or dropped. -/
theorem mem_resolve_front (hkept : kept.Perm kept') {x : α} (hx : ¬ Ends hits clash kept x)
    (dropped t : List α) (rest : List (List α)) :
    x ∈ (resolve hits clash kept' dropped ((x :: t) :: rest).flatten).kept ∨
      x ∈ (resolve hits clash kept' dropped ((x :: t) :: rest).flatten).dropped := by
  rw [flatten_cons, cons_append]
  by_cases hhit : HitBy hits kept' x
  · rw [resolve_cons_of_hit hhit]
    exact .inr ((prefix_dropped _ _ _).subset (by simp))
  · have hfree : ¬ ∃ k ∈ kept', clash k x := fun h => (ends_perm hkept x).not.mp hx ⟨hhit, h⟩
    rw [resolve_cons_of_free hhit hfree]
    exact .inl ((prefix_kept _ _ _).subset (by simp))

/-- What is dropped and what is kept of a class go before the rest, in some order. -/
theorem perm_class (kept dropped g rest : List α) : (kept ++ dropped ++ (g ++ rest)).Perm
      ((kept ++ g.filter fun c => ¬ HitBy hits kept c) ++
        (dropped ++ g.filter fun c => HitBy hits kept c) ++ rest) := by
  rw [← append_assoc]
  refine Perm.append_right _ ?_
  have hsplit := (filter_append_perm (fun c => decide (HitBy hits kept c)) g).symm
  have hcongr : (g.filter fun c => !decide (HitBy hits kept c)) =
      g.filter fun c => ¬ HitBy hits kept c := filter_congr fun c _ => by simp
  rw [hcongr] at hsplit
  refine (hsplit.append_left _).trans ?_
  generalize (g.filter fun c => decide (HitBy hits kept c)) = hit
  generalize (g.filter fun c => ¬ HitBy hits kept c) = opened
  rw [append_assoc, append_assoc]
  refine Perm.append_left _ ?_
  rw [← append_assoc]
  exact perm_append_comm

/-- One class without order, in any order, from what is kept in any order. -/
theorem resolve_free_class {kept kept' dropped' g g' : List α} {rest : List (List α)}
    (hclash : ∀ c ∈ g, ∀ d ∈ g, c ≠ d → ¬ clash c d) (hends : ∀ c ∈ g, ¬ Ends hits clash kept c)
    (hmutual : ∀ c ∈ g, ∀ d ∈ g, c ≠ d → ¬ HitBy hits kept c → ¬ HitBy hits kept d → ¬ hits c d)
    (hkept : kept.Perm kept') (hg : g.Perm g')
    (hnodup : (kept' ++ dropped' ++ (g' :: rest).flatten).Nodup) :
    ∃ kept'' dropped'', (kept ++ g.filter fun c => ¬ HitBy hits kept c).Perm kept'' ∧
      (kept'' ++ dropped'' ++ rest.flatten).Nodup ∧
      resolve hits clash kept' dropped' (g' :: rest).flatten =
        resolve hits clash kept'' dropped'' rest.flatten := by
  have hrun : resolve hits clash kept' dropped' g' =
      ⟨false, kept' ++ g'.filter fun c => ¬ HitBy hits kept' c,
        dropped' ++ g'.filter fun c => HitBy hits kept' c⟩ := by
    apply resolve_class
    · exact fun c hc d hd => hclash c (hg.mem_iff.mpr hc) d (hg.mem_iff.mpr hd)
    · exact nodup_class hnodup
    · exact fun c hc => (ends_perm hkept c).not.mp (hends c (hg.mem_iff.mpr hc))
    · intro c hc d hd hne hc' hd'
      exact hmutual c (hg.mem_iff.mpr hc) d (hg.mem_iff.mpr hd) hne
        ((hitBy_perm hkept c).not.mpr hc') ((hitBy_perm hkept d).not.mpr hd')
  refine ⟨kept' ++ g'.filter fun c => ¬ HitBy hits kept' c,
    dropped' ++ g'.filter fun c => HitBy hits kept' c, ?_, ?_, ?_⟩
  · refine hkept.append ?_
    simp only [← hitBy_perm hkept]
    exact hg.filter _
  · rw [flatten_cons] at hnodup
    exact (perm_class kept' dropped' g' rest.flatten).nodup_iff.mp hnodup
  · rw [flatten_cons, resolve_append, hrun]
    rfl

/-- **Where the order matters, two candidates show it**: putting the one or the other in front of
its class makes the runs end differently. -/
theorem exists_order_matters {gs : List (List α)} {kept : List α}
    (hclash : ∀ g ∈ gs, ∀ c ∈ g, ∀ d ∈ g, c ≠ d → ¬ clash c d)
    (hfree : ¬ OrderFree hits clash kept gs) :
    ∃ c ∈ gs.flatten, ∃ d ∈ gs.flatten, ∀ gs₁ gs₂ : List (List α),
      Forall₂ Perm gs gs₁ → Forall₂ Perm gs gs₂ →
      Foremost c gs₁ → Foremost d gs₂ → ∀ kept₁ kept₂ dropped₁ dropped₂ : List α,
      kept.Perm kept₁ → kept.Perm kept₂ → (kept₁ ++ dropped₁ ++ gs₁.flatten).Nodup →
      (kept₂ ++ dropped₂ ++ gs₂.flatten).Nodup →
      ¬ SameUpToOrder (resolve hits clash kept₁ dropped₁ gs₁.flatten)
        (resolve hits clash kept₂ dropped₂ gs₂.flatten) := by
  induction gs generalizing kept with
  | nil => exact absurd trivial hfree
  | cons g gs ih =>
    rw [forall_mem_cons] at hclash
    by_cases hends : ∃ c ∈ g, Ends hits clash kept c
    · -- some candidates of the class end the run, and one does not
      obtain ⟨c, hc, hcends⟩ := hends
      obtain ⟨x, hx, hxends⟩ : ∃ x ∈ g, ¬ Ends hits clash kept x := by
        by_contra hall
        push Not at hall
        exact hfree (.inl ⟨⟨c, hc, hcends⟩, hall⟩)
      refine ⟨c, by simp [hc], x, by simp [hx], ?_⟩
      intro gs₁ gs₂ hgs₁ hgs₂ hfront₁ hfront₂ kept₁ kept₂ dropped₁ dropped₂ hk₁ hk₂ hn₁ hn₂ hsame
      obtain ⟨g₁, rest₁, hg₁, -, rfl⟩ := forall₂_cons_left_iff.mp hgs₁
      obtain ⟨g₂, rest₂, hg₂, -, rfl⟩ := forall₂_cons_left_iff.mp hgs₂
      obtain ⟨t₁, rfl⟩ := head?_eq_some_iff.mp (hfront₁ g₁ (by simp) (hg₁.mem_iff.mp hc))
      obtain ⟨t₂, rfl⟩ := head?_eq_some_iff.mp (hfront₂ g₂ (by simp) (hg₂.mem_iff.mp hx))
      have hends₁ := (ends_perm hk₁ c).mp hcends
      have hrun₁ : resolve hits clash kept₁ dropped₁ ((c :: t₁) :: rest₁).flatten =
          ⟨true, kept₁, dropped₁⟩ := resolve_cons_of_clash hends₁.1 hends₁.2
      have htaken := mem_resolve_front hk₂ hxends dropped₂ t₂ rest₂
      rw [hrun₁] at hsame
      have hold : x ∈ kept₁ ++ dropped₁ := by
        rcases htaken with h | h
        · exact mem_append_left _ ((hsame.kept x).mpr h)
        · exact mem_append_right _ ((hsame.dropped x).mpr h)
      have hnew : x ∈ ((c :: t₁) :: rest₁).flatten := by
        rw [flatten_cons]
        exact mem_append_left _ (hg₁.mem_iff.mp hx)
      exact (nodup_append.mp hn₁).2.2 x hold x hnew rfl
    · push Not at hends
      by_cases hmutual : ∀ c ∈ g, ∀ d ∈ g, c ≠ d → ¬ HitBy hits kept c → ¬ HitBy hits kept d →
          ¬ hits c d
      · -- the class is free of order: the difference lies further on
        have hrest : ¬ OrderFree hits clash (kept ++ g.filter fun c => ¬ HitBy hits kept c) gs :=
          fun h => hfree (.inr ⟨hends, hmutual, h⟩)
        obtain ⟨c, hc, d, hd, hdiff⟩ := ih hclash.2 hrest
        refine ⟨c, mem_append_right _ hc, d, mem_append_right _ hd, ?_⟩
        intro gs₁ gs₂ hgs₁ hgs₂ hfront₁ hfront₂ kept₁ kept₂ dropped₁ dropped₂ hk₁ hk₂ hn₁ hn₂
        obtain ⟨g₁, rest₁, hg₁, hrest₁, rfl⟩ := forall₂_cons_left_iff.mp hgs₁
        obtain ⟨g₂, rest₂, hg₂, hrest₂, rfl⟩ := forall₂_cons_left_iff.mp hgs₂
        obtain ⟨kept₁', dropped₁', hk₁', hn₁', heq₁⟩ :=
          resolve_free_class hclash.1 hends hmutual hk₁ hg₁ hn₁
        obtain ⟨kept₂', dropped₂', hk₂', hn₂', heq₂⟩ :=
          resolve_free_class hclash.1 hends hmutual hk₂ hg₂ hn₂
        rw [heq₁, heq₂]
        exact hdiff rest₁ rest₂ hrest₁ hrest₂
          (fun g hg => hfront₁ g (mem_cons_of_mem _ hg))
          (fun g hg => hfront₂ g (mem_cons_of_mem _ hg)) kept₁' kept₂' dropped₁' dropped₂'
          hk₁' hk₂' hn₁' hn₂'
      · -- `c` hits `d`: it depends on which of them comes first whether `d` is kept
        push Not at hmutual
        obtain ⟨c, hc, d, hd, hne, hcopen, hdopen, hcd⟩ := hmutual
        refine ⟨c, by simp [hc], d, by simp [hd], ?_⟩
        intro gs₁ gs₂ hgs₁ hgs₂ hfront₁ hfront₂ kept₁ kept₂ dropped₁ dropped₂ hk₁ hk₂ hn₁ hn₂ hsame
        obtain ⟨g₁, rest₁, hg₁, -, rfl⟩ := forall₂_cons_left_iff.mp hgs₁
        obtain ⟨g₂, rest₂, hg₂, -, rfl⟩ := forall₂_cons_left_iff.mp hgs₂
        obtain ⟨t₁, rfl⟩ := head?_eq_some_iff.mp (hfront₁ g₁ (by simp) (hg₁.mem_iff.mp hc))
        obtain ⟨t₂, rfl⟩ := head?_eq_some_iff.mp (hfront₂ g₂ (by simp) (hg₂.mem_iff.mp hd))
        have hkept : d ∈ (resolve hits clash kept₂ dropped₂ ((d :: t₂) :: rest₂).flatten).kept := by
          have hhit : ¬ HitBy hits kept₂ d := (hitBy_perm hk₂ d).not.mp hdopen
          have hclash₂ : ¬ ∃ k ∈ kept₂, clash k d :=
            fun h => (ends_perm hk₂ d).not.mp (hends d hd) ⟨hhit, h⟩
          rw [flatten_cons, cons_append, resolve_cons_of_free hhit hclash₂]
          exact (prefix_kept _ _ _).subset (by simp)
        have hdrop :
            d ∈ (resolve hits clash kept₁ dropped₁ ((c :: t₁) :: rest₁).flatten).dropped := by
          have hhit : ¬ HitBy hits kept₁ c := (hitBy_perm hk₁ c).not.mp hcopen
          have hclash₁ : ¬ ∃ k ∈ kept₁, clash k c :=
            fun h => (ends_perm hk₁ c).not.mp (hends c hc) ⟨hhit, h⟩
          rw [flatten_cons, cons_append, resolve_cons_of_free hhit hclash₁]
          have hnd₁ : (c :: t₁).Nodup := nodup_class hn₁
          have hmem : ∀ y ∈ t₁, y ∈ g := fun y hy =>
            hg₁.mem_iff.mpr (mem_cons_of_mem _ hy)
          apply mem_dropped_of_hitBy
          · exact (mem_cons.mp (hg₁.mem_iff.mp hd)).resolve_left (Ne.symm hne)
          · exact ⟨c, by simp, hcd⟩
          · intro y hy
            have hne : c ≠ y := fun heq => (nodup_cons.mp hnd₁).1 (heq ▸ hy)
            exact not_ends_append ((ends_perm hk₁ y).not.mp (hends y (hmem y hy)))
              (hclash.1 c hc y (hmem y hy) hne)
          · exact fun y hy z hz => hclash.1 y (hmem y hy) z (hmem z hz)
          · exact (nodup_cons.mp hnd₁).2
        exact not_mem_kept_of_dropped hits clash hn₁ hdrop ((hsame.kept d).mpr hkept)

end OvcReplay.Lists
