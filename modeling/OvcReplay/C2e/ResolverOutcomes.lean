import OvcReplay.C2e.Resolver

/-! # What the candidate resolver decides

When `resolve_candidates` resolves, what it then resolves and suppresses, and when a conflict leaves
nothing resolved. -/

namespace OvcReplay.C2e

open List Python OvcReplay.Lists

variable {pack : BoundaryPack}

/-! ## Pairs of candidates -/

/-- The matrix declares the two candidates a compatible compound. -/
def Compound (pack : BoundaryPack) (a b : Candidate) : Prop :=
  compatibilityDisposition pack a.candidateType b.candidateType = .ok .compatibleCompound

/-- The two may both be applied: a compound, or ordered by different priorities. -/
def Lawful (pack : BoundaryPack) (a b : Candidate) : Prop :=
  Compound pack a b ∨ (a.priorityClass ≠ b.priorityClass ∧
    compatibilityDisposition pack a.candidateType b.candidateType = .ok .orderedByPriority)

/-- The matrix can be read and is closed to the two: undeclared, incompatible or exclusive. -/
def Refused (pack : BoundaryPack) (a b : Candidate) : Prop :=
  ∃ disposition ∈ Disposition.closed,
    compatibilityDisposition pack a.candidateType b.candidateType = .ok disposition

/-- The matrix is closed to the two, or cannot be read. -/
def Closed (pack : BoundaryPack) (a b : Candidate) : Prop :=
  ∀ disposition, compatibilityDisposition pack a.candidateType b.candidateType = .ok disposition →
    disposition ∈ Disposition.closed

instance (pack : BoundaryPack) : DecidableRel (Closed pack) := fun a b =>
  decidable_of_iff (((compatibilityDisposition pack a.candidateType b.candidateType).toOption.all
    fun disposition => disposition ∈ Disposition.closed) = true) (by
      unfold Closed
      cases compatibilityDisposition pack a.candidateType b.candidateType <;>
        simp [Except.toOption])

/-- The action of `k` invalidates `c`. -/
def Invalidates (k c : Candidate) : Prop :=
  k.lifecycleAction ∈ c.invalidatedByActions.getD []

instance : DecidableRel Invalidates := fun _ _ => inferInstanceAs (Decidable (_ ∈ _))

/-- Any two candidates of equal priority are a compound. -/
def EqualPriorityCompatible (pack : BoundaryPack) (candidates : List Candidate) : Prop :=
  candidates.Pairwise fun a b => a.priorityClass = b.priorityClass → Compound pack a b

theorem compatibilityKey_comm (a b : PyStr) : compatibilityKey a b = compatibilityKey b a := by
  unfold compatibilityKey
  rcases lt_trichotomy a b with h | rfl | h
  · rw [if_pos h.le, if_neg (not_le.mpr h)]
  · rfl
  · rw [if_neg (not_le.mpr h), if_pos h.le]

/-- The order of the two types does not matter. -/
theorem compatibilityDisposition_comm (pack : BoundaryPack) (a b : PyStr) :
    compatibilityDisposition pack a b = compatibilityDisposition pack b a := by
  unfold compatibilityDisposition dispositionIn
  rw [compatibilityKey_comm]

variable {a b : Candidate}

theorem compound_comm (h : Compound pack a b) : Compound pack b a := by
  unfold Compound
  rw [compatibilityDisposition_comm]
  exact h

theorem equalPriorityCompatible_perm {xs ys : List Candidate} (h : xs.Perm ys) :
    EqualPriorityCompatible pack xs ↔ EqualPriorityCompatible pack ys :=
  h.pairwise_iff fun hab heq => compound_comm (hab heq.symm)

/-- A pair that is not closed is open: it is a compound or ordered by priority. -/
theorem not_closed_iff : ¬ Closed pack a b ↔ Compound pack a b ∨
      compatibilityDisposition pack a.candidateType b.candidateType = .ok .orderedByPriority := by
  unfold Closed Compound
  cases compatibilityDisposition pack a.candidateType b.candidateType with
  | error e => simp
  | ok disposition => cases disposition <;> simp [Disposition.closed]

theorem lawful_iff {a b : Candidate}
    (hequal : a.priorityClass = b.priorityClass → Compound pack a b) :
    Lawful pack a b ↔ ¬ Closed pack a b := by
  rw [not_closed_iff]
  constructor
  · rintro (h | ⟨-, h⟩)
    · exact .inl h
    · exact .inr h
  · rintro (h | h)
    · exact .inl h
    · by_cases heq : a.priorityClass = b.priorityClass
      · exact .inl (hequal heq)
      · exact .inr ⟨heq, h⟩

/-! ## `_semantic_conflict` -/

theorem forall_combinations {α : Type} {R : α → α → Prop} {xs : List α} :
    (∀ p ∈ combinations xs, R p.1 p.2) ↔ xs.Pairwise R := by
  induction xs with
  | nil => simp [combinations]
  | cons x xs ih =>
    rw [combinations, forall_mem_append, ih, pairwise_cons]
    simp

theorem reasonFor_eq_none : reasonFor pack a b = .ok none ↔ Lawful pack a b := by
  unfold reasonFor Lawful Compound
  cases compatibilityDisposition pack a.candidateType b.candidateType with
  | error e => simp [bind, Except.bind]
  | ok disposition =>
    by_cases heq : a.priorityClass = b.priorityClass
    · cases disposition <;> simp [bind, Except.bind, pure, Except.pure, Disposition.closed, heq]
    · cases disposition <;> simp [bind, Except.bind, pure, Except.pure, Disposition.closed, heq]

/-- **No reason is found iff every two candidates of the group are lawful.** -/
theorem semanticConflict_eq_nil {group : List Candidate} :
    semanticConflict pack group = .ok [] ↔ group.Pairwise (Lawful pack) := by
  rw [← forall_combinations]
  unfold semanticConflict
  generalize combinations group = pairs
  simp only [← reasonFor_eq_none]
  constructor
  · intro h
    obtain ⟨reasons, hreasons, h⟩ := bind_ok.mp h
    have hnil : reasons.reduceOption = [] := by
      have hperm := sortedBy_perm id reasons.reduceOption
      rw [Except.ok.inj h] at hperm
      exact hperm.symm.eq_nil
    intro p hp
    obtain ⟨r, hr, hpr⟩ := mem_of_mapM_left hreasons hp
    cases r with
    | none => exact hpr
    | some reason =>
      have hmem := reduceOption_mem_iff.mpr hr
      rw [hnil] at hmem
      exact absurd hmem not_mem_nil
  · intro h
    have hreasons : pairs.mapM (fun p => reasonFor pack p.1 p.2) =
        .ok (List.replicate pairs.length none) := by
      rw [mapM_ok_iff]
      induction pairs with
      | nil => exact .nil
      | cons p pairs ih =>
        exact .cons (h p (by simp)) (ih fun q hq => h q (mem_cons_of_mem _ hq))
    rw [hreasons]
    simp [bind, Except.bind, pure, Except.pure]

/-! ## The check of equal priorities -/

theorem equalPriorityConflict_eq_none {normalized : List Candidate} {priorities : List Int} :
    equalPriorityConflict pack normalized priorities = .ok none ↔ ∀ priority ∈ priorities,
        (normalized.filter fun c => c.priorityClass = priority).Pairwise (Lawful pack) := by
  induction priorities with
  | nil => simp [equalPriorityConflict]
  | cons priority priorities ih =>
    rw [equalPriorityConflict, forall_mem_cons, ← ih, ← semanticConflict_eq_nil]
    cases semanticConflict pack (normalized.filter fun c => c.priorityClass = priority) with
    | error e => simp [bind, Except.bind]
    | ok reasons =>
      cases reasons with
      | nil => simp [bind, Except.bind]
      | cons reason reasons => simp [bind, Except.bind, pure, Except.pure]

/-- **The check passes iff any two candidates of equal priority are a compound.** -/
theorem equalPriorityConflict_iff {normalized : List Candidate} :
    equalPriorityConflict pack normalized (sortedSet (normalized.map Candidate.priorityClass)) =
      .ok none ↔ EqualPriorityCompatible pack normalized := by
  rw [equalPriorityConflict_eq_none]
  simp only [pairwise_filter, decide_eq_true_eq]
  constructor
  · intro h
    refine pairwise_iff_forall_sublist.mpr fun {a b} hab heq => ?_
    have ha : a ∈ normalized := hab.subset (by simp)
    have hpair := pairwise_iff_forall_sublist.mp
      (h a.priorityClass (mem_sortedSet.mpr (mem_map_of_mem ha))) hab
    rcases hpair rfl heq.symm with hcmpd | ⟨hne, -⟩
    · exact hcmpd
    · exact absurd heq hne
  · intro h priority _
    refine h.imp fun {a b} hab ha hb => ?_
    exact .inl (hab (ha.trans hb.symm))

/-! ## The loop over the candidates -/

variable {resolved : List Candidate} {c : Candidate}

theorem conflictsWith_ok {found : Bool} (h : conflictsWith pack c resolved = .ok found) :
    found = true ↔ ∃ k ∈ resolved, Closed pack k c := by
  induction resolved with
  | nil =>
    cases h
    simp
  | cons k resolved ih =>
    rw [conflictsWith] at h
    obtain ⟨disposition, hd, h⟩ := bind_ok.mp h
    have hclosed : Closed pack k c ↔ disposition ∈ Disposition.closed := by
      unfold Closed
      rw [hd]
      simp
    rw [exists_mem_cons_iff, hclosed]
    by_cases hmem : disposition ∈ Disposition.closed
    · rw [if_pos hmem] at h
      exact iff_of_true (Except.ok.inj h).symm (.inl hmem)
    · rw [if_neg hmem] at h
      simp only [hmem, false_or]
      exact ih h

theorem conflictsWith_of_open (h : ¬ ∃ k ∈ resolved, Closed pack k c) :
    conflictsWith pack c resolved = .ok false := by
  induction resolved with
  | nil => rfl
  | cons k resolved ih =>
    rw [exists_mem_cons_iff, not_or] at h
    obtain ⟨disposition, hd, hmem⟩ : ∃ disposition, compatibilityDisposition pack
        k.candidateType c.candidateType = .ok disposition ∧
        disposition ∉ Disposition.closed := by
      simpa [Closed] using h.1
    rw [conflictsWith, hd]
    simp only [bind, Except.bind, hmem, if_false]
    exact ih h.2

theorem exists_mem_map_action {kept : List Candidate} :
    (∃ action ∈ kept.map Candidate.lifecycleAction, action ∈ c.invalidatedByActions.getD []) ↔
      ∃ k ∈ kept, Invalidates k c := by
  simp [Invalidates]

/-- A resolution as the loop leaves it. -/
def appliedOf (r : Resolution Candidate) : Applied :=
  ⟨r.conflict, r.kept, r.dropped.map Candidate.suppress⟩

variable {applied : Applied} {kept dropped cs : List Candidate}

/-- **What the loop returns is the resolution of its candidates.** -/
theorem applyCandidates_eq
    (h : applyCandidates pack kept (dropped.map Candidate.suppress)
      (kept.map Candidate.lifecycleAction) cs = .ok applied) :
    applied = appliedOf (resolve Invalidates (Closed pack) kept dropped cs) := by
  induction cs generalizing kept dropped with
  | nil => exact (Except.ok.inj h).symm
  | cons c cs ih =>
    rw [applyCandidates] at h
    by_cases hhit : ∃ k ∈ kept, Invalidates k c
    · rw [if_pos (exists_mem_map_action.mpr hhit)] at h
      rw [resolve_cons_of_hit hhit]
      apply ih
      rw [map_append]
      exact h
    · rw [if_neg (exists_mem_map_action.not.mpr hhit)] at h
      obtain ⟨found, hfound, h⟩ := bind_ok.mp h
      have hiff := conflictsWith_ok hfound
      cases found with
      | true =>
        rw [resolve_cons_of_clash hhit (hiff.mp rfl)]
        exact (Except.ok.inj h).symm
      | false =>
        rw [resolve_cons_of_free hhit fun hclash => Bool.noConfusion (hiff.mpr hclash)]
        apply ih
        rw [map_append]
        exact h

/-- The loop returns when no two survivors are closed. -/
theorem applyCandidates_returns
    (h : (resolve Invalidates (Closed pack) kept dropped cs).conflict = false) :
    ∃ applied, applyCandidates pack kept (dropped.map Candidate.suppress)
      (kept.map Candidate.lifecycleAction) cs = .ok applied := by
  induction cs generalizing kept dropped with
  | nil => exact ⟨_, rfl⟩
  | cons c cs ih =>
    rw [applyCandidates]
    by_cases hhit : ∃ k ∈ kept, Invalidates k c
    · rw [resolve_cons_of_hit hhit] at h
      rw [if_pos (exists_mem_map_action.mpr hhit)]
      have hrest := ih h
      rw [map_append] at hrest
      exact hrest
    · rw [if_neg (exists_mem_map_action.not.mpr hhit)]
      by_cases hclash : ∃ k ∈ kept, Closed pack k c
      · rw [resolve_cons_of_clash hhit hclash] at h
        cases h
      · rw [resolve_cons_of_free hhit hclash] at h
        have hrest := ih h
        rw [map_append] at hrest
        rw [conflictsWith_of_open hclash]
        exact hrest

/-- A matrix that can be read never stops the loop. -/
theorem applyCandidates_returns_of_matrix {rows : List CompatibilityRow}
    (hmx : matrixOf pack = .ok rows) (resolved : List Candidate)
    (suppressed : List SuppressedCandidate) (actions : List PyStr) (cs : List Candidate) :
    Returns (applyCandidates pack resolved suppressed actions cs) := by
  have hdisp : ∀ a b, Returns (compatibilityDisposition pack a b) := by
    intro a b
    rw [compatibilityDisposition, hmx]
    exact returns_ok _
  have hconflicts : ∀ (c : Candidate) (ks : List Candidate), Returns (conflictsWith pack c ks) := by
    intro c ks
    induction ks with
    | nil => exact returns_ok _
    | cons k ks ih =>
      obtain ⟨disposition, hd⟩ := hdisp k.candidateType c.candidateType
      rw [conflictsWith, returns_bind]
      refine ⟨disposition, hd, ?_⟩
      split_ifs
      · exact returns_ok _
      · exact ih
  induction cs generalizing resolved suppressed actions with
  | nil => exact returns_ok _
  | cons c cs ih =>
    rw [applyCandidates]
    split_ifs
    · exact ih _ _ _
    · obtain ⟨found, hfound⟩ := hconflicts c resolved
      rw [returns_bind]
      refine ⟨found, hfound, ?_⟩
      cases found with
      | true => exact returns_ok _
      | false => exact ih _ _ _

/-! ## The outcome -/

/-- The candidates in their order, applied. -/
def application (pack : BoundaryPack) (candidates : List (Option Candidate)) :
    Resolution Candidate :=
  resolve Invalidates (Closed pack) [] [] (normalizedCandidates candidates)

/-- The candidates that no action of one in front of them invalidates. -/
def surviving (candidates : List (Option Candidate)) : List Candidate :=
  survivors Invalidates [] (normalizedCandidates candidates)

variable {candidates : List (Option Candidate)}

theorem normalizedCandidates_perm (candidates : List (Option Candidate)) :
    (normalizedCandidates candidates).Perm (evaluableCandidates candidates) :=
  sortedBy_perm _ _

theorem application_conflict_iff : (application pack candidates).conflict = false ↔
      (surviving candidates).Pairwise fun a b => ¬ Closed pack a b :=
  resolve_conflict_iff Pairwise.nil

/-- Survivors that are not closed to each other are lawful. -/
theorem pairwise_lawful_iff
    (hequal : EqualPriorityCompatible pack (normalizedCandidates candidates)) :
    (surviving candidates).Pairwise (Lawful pack) ↔
      (application pack candidates).conflict = false := by
  rw [application_conflict_iff]
  have hsub : (surviving candidates).Sublist (normalizedCandidates candidates) := by
    have hsub := survivors_sublist Invalidates [] (normalizedCandidates candidates)
    rwa [nil_append] at hsub
  have hsurviving : EqualPriorityCompatible pack (surviving candidates) :=
    Pairwise.sublist hsub hequal
  constructor
  · exact fun h => Pairwise.imp₂ (fun a b heq hlaw => (lawful_iff heq).mp hlaw)
      hsurviving h
  · exact fun h => Pairwise.imp₂ (fun a b heq hopen => (lawful_iff heq).mpr hopen)
      hsurviving h

/-- The loop run from the start. -/
theorem applyCandidates_nil
    (h : applyCandidates pack [] [] [] (normalizedCandidates candidates) = .ok applied) :
    applied = appliedOf (application pack candidates) := by
  have hstart : applyCandidates pack [] (([] : List Candidate).map Candidate.suppress)
      (([] : List Candidate).map Candidate.lifecycleAction) (normalizedCandidates candidates) =
        .ok applied := h
  exact applyCandidates_eq hstart

/-- The closure over all pairs finds nothing that the loop let pass. -/
theorem semanticConflict_appliedOf
    (hcompat : EqualPriorityCompatible pack (normalizedCandidates candidates))
    (hconf : ¬ (application pack candidates).conflict = true) :
    semanticConflict pack (appliedOf (application pack candidates)).resolved = .ok [] := by
  have hfalse : (application pack candidates).conflict = false := by simpa using hconf
  have hkept : (appliedOf (application pack candidates)).resolved = surviving candidates :=
    kept_of_no_conflict hfalse
  rw [hkept, semanticConflict_eq_nil, pairwise_lawful_iff hcompat]
  exact hfalse

/-- **What `resolve_candidates` returns**: nothing resolved when the check of equal priorities
fails, and otherwise what the loop left. -/
theorem resolveCandidates_cases {outcome : CandidateResolution}
    (h : resolveCandidates pack candidates = .ok outcome) :
    (¬ EqualPriorityCompatible pack (normalizedCandidates candidates) ∧
      outcome.status = .conflict ∧ outcome.resolved = [] ∧ outcome.suppressed = []) ∨
    (EqualPriorityCompatible pack (normalizedCandidates candidates) ∧
      outcome.status = (if (application pack candidates).conflict then .conflict else .resolved) ∧
      outcome.resolved = (application pack candidates).kept ∧
      outcome.suppressed = (application pack candidates).dropped.map Candidate.suppress) := by
  unfold resolveCandidates at h
  dsimp only at h
  obtain ⟨equal, hequal, h⟩ := bind_ok.mp h
  cases equal with
  | some reasons =>
    refine .inl ⟨fun hcompat => ?_, ?_⟩
    · rw [equalPriorityConflict_iff.mpr hcompat] at hequal
      cases Except.ok.inj hequal
    · cases h
      exact ⟨rfl, rfl, rfl⟩
  | none =>
    have hcompat := equalPriorityConflict_iff.mp hequal
    obtain ⟨applied, happlied, h⟩ := bind_ok.mp h
    obtain rfl := applyCandidates_nil happlied
    refine .inr ⟨hcompat, ?_⟩
    by_cases hconf : (application pack candidates).conflict = true
    · have hleft : (appliedOf (application pack candidates)).conflict = true := hconf
      rw [if_pos hleft] at h
      cases h
      exact ⟨(if_pos hconf).symm, rfl, rfl⟩
    · have hleft : ¬ (appliedOf (application pack candidates)).conflict = true := hconf
      rw [if_neg hleft] at h
      rw [semanticConflict_appliedOf hcompat hconf] at h
      cases h
      exact ⟨(if_neg hconf).symm, rfl, rfl⟩

/-- Compatible candidates of which no survivors are closed to each other are resolved. -/
theorem resolveCandidates_returns
    (hcompat : EqualPriorityCompatible pack (normalizedCandidates candidates))
    (happlied : Returns (applyCandidates pack [] [] [] (normalizedCandidates candidates))) :
    Returns (resolveCandidates pack candidates) := by
  unfold resolveCandidates
  dsimp only
  rw [equalPriorityConflict_iff.mpr hcompat]
  obtain ⟨applied, happlied⟩ := happlied
  simp only [bind, Except.bind, happlied]
  obtain rfl := applyCandidates_nil happlied
  by_cases hconf : (application pack candidates).conflict = true
  · have hleft : (appliedOf (application pack candidates)).conflict = true := hconf
    rw [if_pos hleft]
    exact returns_ok _
  · have hleft : ¬ (appliedOf (application pack candidates)).conflict = true := hconf
    rw [if_neg hleft]
    rw [semanticConflict_appliedOf hcompat hconf]
    exact returns_ok _

/-- A conflict that is found was read in the matrix. -/
theorem matrix_of_conflictsWith (h : conflictsWith pack c resolved = .ok true) :
    Returns (matrixOf pack) := by
  cases resolved with
  | nil => cases Except.ok.inj h
  | cons k resolved =>
    rw [conflictsWith] at h
    obtain ⟨disposition, hd, -⟩ := bind_ok.mp h
    obtain ⟨rows, hmx, -⟩ := map_ok.mp hd
    exact ⟨rows, hmx⟩

theorem matrix_of_applied {suppressed : List SuppressedCandidate} {actions : List PyStr}
    {cs : List Candidate} (h : applyCandidates pack resolved suppressed actions cs = .ok applied)
    (hconf : applied.conflict = true) : Returns (matrixOf pack) := by
  induction cs generalizing resolved suppressed actions with
  | nil =>
    cases h
    cases hconf
  | cons c cs ih =>
    rw [applyCandidates] at h
    split_ifs at h
    · exact ih h
    · obtain ⟨found, hfound, h⟩ := bind_ok.mp h
      cases found with
      | true => exact matrix_of_conflictsWith hfound
      | false => exact ih h

/-- When the loop ends early and the call returns, the matrix could be read. -/
theorem matrix_of_conflict {outcome : CandidateResolution}
    (hcompat : EqualPriorityCompatible pack (normalizedCandidates candidates))
    (h : resolveCandidates pack candidates = .ok outcome)
    (hconf : (application pack candidates).conflict = true) : Returns (matrixOf pack) := by
  unfold resolveCandidates at h
  dsimp only at h
  rw [equalPriorityConflict_iff.mpr hcompat] at h
  obtain ⟨equal, hequal, h⟩ := bind_ok.mp h
  cases hequal
  obtain ⟨applied, happlied, -⟩ := bind_ok.mp h
  have hleft : applied.conflict = true := by
    rw [applyCandidates_nil happlied]
    exact hconf
  exact matrix_of_applied happlied hleft

/-! ## The resolver characterised -/

/-- What `resolve_candidates` decides on these candidates is what its purpose asks for. -/
structure ResolvesLawfully (pack : BoundaryPack) (candidates : List (Option Candidate)) :
    Prop where
  /-- The outcome is `RESOLVED` iff candidates of equal priority are compounds and the survivors
  are lawful. -/
  resolved_iff : (∃ outcome, resolveCandidates pack candidates = .ok outcome ∧
      outcome.status = .resolved) ↔
    EqualPriorityCompatible pack (evaluableCandidates candidates) ∧
      (surviving candidates).Pairwise (Lawful pack)
  /-- A resolution splits the candidates into the survivors and the suppressed. -/
  partition : ∀ outcome, resolveCandidates pack candidates = .ok outcome →
    outcome.status = .resolved → outcome.resolved = surviving candidates ∧
      (outcome.resolved ++ outcome.suppressed.map SuppressedCandidate.toCandidate).Perm
        (evaluableCandidates candidates)
  /-- A suppressed candidate was invalidated by a resolved one in front of it. -/
  invalidated : ∀ outcome, resolveCandidates pack candidates = .ok outcome →
    outcome.status = .resolved → ∀ c ∈ outcome.suppressed, ∃ k ∈ outcome.resolved,
      Invalidates k c.toCandidate ∧
        [k, c.toCandidate].Sublist (normalizedCandidates candidates)
  /-- A conflict resolves nothing. -/
  failClosed : ∀ outcome, resolveCandidates pack candidates = .ok outcome →
    outcome.status = .conflict → outcome.resolved = []

/-- Two candidates, compatible with those of their priority, survive though the matrix is closed to
them. -/
def ClosedSurvivors (pack : BoundaryPack) (candidates : List (Option Candidate)) : Prop :=
  EqualPriorityCompatible pack (evaluableCandidates candidates) ∧
    ∃ a b, [a, b].Sublist (surviving candidates) ∧ Refused pack a b

theorem map_toCandidate_suppress (cs : List Candidate) :
    (cs.map Candidate.suppress).map SuppressedCandidate.toCandidate = cs := by
  rw [map_map]
  exact map_id _

/-- With survivors that the matrix is closed to, the loop returns what it had resolved. -/
theorem resolved_ne_nil_of_closedSurvivors (h : ClosedSurvivors pack candidates) :
    ∃ outcome, resolveCandidates pack candidates = .ok outcome ∧
      outcome.status = .conflict ∧ outcome.resolved ≠ [] := by
  obtain ⟨hcompat, a, b, hsub, disposition, hmem, hd⟩ := h
  rw [← equalPriorityCompatible_perm (normalizedCandidates_perm candidates)] at hcompat
  obtain ⟨rows, hmx, -⟩ := map_ok.mp hd
  have hconf : (application pack candidates).conflict = true := by
    by_contra hne
    have hopen := application_conflict_iff.mp (by simpa using hne)
    refine pairwise_iff_forall_sublist.mp hopen hsub fun disposition' hd' => ?_
    rw [hd] at hd'
    exact Except.ok.inj hd' ▸ hmem
  obtain ⟨outcome, houtc⟩ := resolveCandidates_returns hcompat
    (applyCandidates_returns_of_matrix hmx [] [] [] _)
  rcases resolveCandidates_cases houtc with ⟨hnot, -⟩ | ⟨-, hstat, hresolved, -⟩
  · exact absurd hcompat hnot
  · rw [if_pos hconf] at hstat
    refine ⟨outcome, houtc, hstat, ?_⟩
    rw [hresolved]
    exact kept_ne_nil_of_conflict hconf

/-- **`resolve_candidates` decides as its purpose asks exactly when no survivors are closed to each
other.** -/
theorem resolvesLawfully_iff (pack : BoundaryPack) (candidates : List (Option Candidate)) :
    ResolvesLawfully pack candidates ↔ ¬ ClosedSurvivors pack candidates := by
  have hperm := normalizedCandidates_perm candidates
  constructor
  · intro h hclosed
    obtain ⟨outcome, houtc, hstat, hne⟩ := resolved_ne_nil_of_closedSurvivors hclosed
    exact hne (h.failClosed outcome houtc hstat)
  · intro hopen
    refine ⟨⟨?_, ?_⟩, ?_, ?_, ?_⟩
    · rintro ⟨outcome, houtc, hstat⟩
      rcases resolveCandidates_cases houtc with ⟨-, hconf, -⟩ | ⟨hequal, hrun, -⟩
      · rw [hconf] at hstat
        cases hstat
      · refine ⟨(equalPriorityCompatible_perm hperm).mp hequal, ?_⟩
        rw [pairwise_lawful_iff hequal]
        by_contra hne
        rw [if_pos (by simpa using hne), hstat] at hrun
        cases hrun
    · rintro ⟨hequal, hlaw⟩
      have hequal := (equalPriorityCompatible_perm hperm).mpr hequal
      have hrun := (pairwise_lawful_iff hequal).mp hlaw
      have happlied := applyCandidates_returns hrun
      obtain ⟨outcome, houtc⟩ := resolveCandidates_returns hequal happlied
      refine ⟨outcome, houtc, ?_⟩
      rcases resolveCandidates_cases houtc with ⟨hnot, -⟩ | ⟨-, hstat, -⟩
      · exact absurd hequal hnot
      · rw [hstat, hrun]
        rfl
    · intro outcome houtc hstat
      rcases resolveCandidates_cases houtc with ⟨-, hconf, -⟩ | ⟨-, hrun, hres, hsup⟩
      · rw [hconf] at hstat
        cases hstat
      · have hfalse : (application pack candidates).conflict = false := by
          by_contra hne
          rw [if_pos (by simpa using hne), hstat] at hrun
          cases hrun
        refine ⟨hres.trans (kept_of_no_conflict hfalse), ?_⟩
        rw [hres, hsup, map_toCandidate_suppress]
        obtain ⟨taken, rest, htaken, htook, hrest⟩ := exists_taken Invalidates (Closed pack)
          [] [] (normalizedCandidates candidates)
        rw [hrest hfalse, append_nil] at htaken
        rw [← htaken] at htook
        exact htook.trans hperm
    · intro outcome houtc hstat c hc
      rcases resolveCandidates_cases houtc with ⟨-, hconf, -⟩ | ⟨-, -, hres, hsup⟩
      · rw [hconf] at hstat
        cases hstat
      · rw [hsup] at hc
        obtain ⟨d, hd, rfl⟩ := mem_map.mp hc
        rw [hres]
        have hhit : ∀ d ∈ (application pack candidates).dropped,
            ∃ k ∈ (application pack candidates).kept,
              Invalidates k d ∧ [k, d].Sublist ([] ++ normalizedCandidates candidates) :=
          hit_of_dropped (by simp) (by simp)
        exact hhit d hd
    · intro outcome houtc hstat
      rcases resolveCandidates_cases houtc with ⟨-, -, hres, -⟩ | ⟨hequal, hrun, hres, -⟩
      · exact hres
      · -- two survivors the matrix is closed to would be needed
        exfalso
        have hconf : (application pack candidates).conflict = true := by
          by_contra hne
          rw [if_neg hne, hstat] at hrun
          cases hrun
        obtain ⟨rows, hmx⟩ := matrix_of_conflict hequal houtc hconf
        have hpair : ¬ (surviving candidates).Pairwise fun a b => ¬ Closed pack a b := by
          rw [← application_conflict_iff, hconf]
          exact Bool.noConfusion
        obtain ⟨a, b, hsub, hclosed⟩ : ∃ a b, [a, b].Sublist (surviving candidates) ∧
            Closed pack a b := by
          by_contra hnone
          refine hpair (pairwise_iff_forall_sublist.mpr fun {a b} hab hclosed => ?_)
          exact hnone ⟨a, b, hab, hclosed⟩
        have hd : compatibilityDisposition pack a.candidateType b.candidateType =
            .ok (dispositionIn rows a.candidateType b.candidateType) := by
          rw [compatibilityDisposition, hmx]
          rfl
        exact hopen ⟨(equalPriorityCompatible_perm hperm).mp hequal, a, b, hsub, _,
          hclosed _ hd, hd⟩

/-- Two candidates of different types and priorities that no matrix declares. -/
def undeclaredPair : List (Option Candidate) :=
  [some ⟨py "C1", py "TYPE.A", 1, py "BIRTH", none, none⟩,
    some ⟨py "C2", py "TYPE.B", 2, py "CONTINUATION", none, none⟩]

/-- **A conflict of different priorities leaves the earlier candidate resolved.** -/
theorem undeclaredPair_resolved : ¬ ∀ (pack : BoundaryPack) (candidates : List (Option Candidate)),
      ResolvesLawfully pack candidates := by
  intro h
  have hrun : (resolveCandidates ⟨none⟩ undeclaredPair).toOption.map (fun outcome =>
      (outcome.status, outcome.resolved.length)) = some (.conflict, 1) := by
    decide +kernel
  obtain ⟨outcome, houtc, hval⟩ := Option.map_eq_some_iff.mp hrun
  obtain ⟨hstat, hlen⟩ := Prod.mk.inj hval
  have hnil := (h ⟨none⟩ undeclaredPair).failClosed outcome (eq_ok_of_toOption houtc) hstat
  rw [hnil] at hlen
  cases hlen

end OvcReplay.C2e
