import OvcReplay.C2e.ResolverOutcomes
import OvcReplay.Lists.ResolutionOrder

/-! # Names of candidates

The ids of the candidates only order those of equal priority. Whether that order shows in what
`resolve_candidates` decides is whether the order within the classes of equal priority matters. -/

namespace OvcReplay.C2e

open List Python OvcReplay.Lists

variable {pack : BoundaryPack}

/-- The candidate under another id. -/
def Candidate.rename (ρ : PyStr → PyStr) (c : Candidate) : Candidate :=
  { c with candidateId := ρ c.candidateId }

/-- One outcome is the other under the new names: both raise, or the statuses agree and the
resolved and the suppressed candidates correspond. -/
def Corresponds (ρ : PyStr → PyStr) :
    Except BoundaryPackError CandidateResolution →
    Except BoundaryPackError CandidateResolution → Prop
  | .ok outcome, .ok outcome' =>
    outcome.status = outcome'.status ∧
      (∀ c, c ∈ outcome'.resolved ↔ ∃ d ∈ outcome.resolved, d.rename ρ = c) ∧
      ∀ c, c ∈ outcome'.suppressed.map SuppressedCandidate.toCandidate ↔
        ∃ d ∈ outcome.suppressed.map SuppressedCandidate.toCandidate, d.rename ρ = c
  | .error _, .error _ => True
  | _, _ => False

/-- **What is decided of these candidates does not depend on their names or their order.** -/
def NamingIndependent (pack : BoundaryPack) (candidates : List (Option Candidate)) : Prop :=
  ∀ ρ : PyStr → PyStr, Function.Injective ρ → ∀ candidates' : List (Option Candidate),
    candidates'.Perm (candidates.map (Option.map (Candidate.rename ρ))) →
    Corresponds ρ (resolveCandidates pack candidates) (resolveCandidates pack candidates')

/-- The classes of equal priority, in the order they are applied in. -/
def priorityClasses (candidates : List Candidate) : List (List Candidate) :=
  (sortedSet (candidates.map Candidate.priorityClass)).map fun priority =>
    candidates.filter fun c => c.priorityClass = priority

/-! ## When the call returns -/

variable {rows : List CompatibilityRow}

theorem returns_mapM_reasonFor (hmx : matrixOf pack = .ok rows)
    (pairs : List (Candidate × Candidate)) :
    Returns (pairs.mapM fun p => reasonFor pack p.1 p.2) := by
  rw [returns_mapM]
  intro p _
  unfold reasonFor compatibilityDisposition
  rw [hmx]
  simp only [Except.map, bind, Except.bind]
  split_ifs
  · exact returns_ok _
  · exact returns_ok _
  · exact returns_ok _

theorem returns_semanticConflict (hmx : matrixOf pack = .ok rows) (group : List Candidate) :
    Returns (semanticConflict pack group) := by
  obtain ⟨reasons, hreasons⟩ := returns_mapM_reasonFor hmx (combinations group)
  rw [semanticConflict, hreasons]
  exact returns_ok _

theorem returns_equalPriorityConflict (hmx : matrixOf pack = .ok rows)
    (normalized : List Candidate) (priorities : List Int) :
    Returns (equalPriorityConflict pack normalized priorities) := by
  induction priorities with
  | nil => exact returns_ok _
  | cons priority priorities ih =>
    obtain ⟨reasons, hreasons⟩ := returns_semanticConflict hmx
      (normalized.filter fun c => c.priorityClass = priority)
    rw [equalPriorityConflict, returns_bind]
    refine ⟨reasons, hreasons, ?_⟩
    split_ifs
    · exact returns_ok _
    · exact ih

/-- A matrix that can be read never stops the resolver. -/
theorem returns_of_matrix (hmx : matrixOf pack = .ok rows)
    (candidates : List (Option Candidate)) : Returns (resolveCandidates pack candidates) := by
  by_cases hequal : EqualPriorityCompatible pack (normalizedCandidates candidates)
  · exact resolveCandidates_returns hequal (applyCandidates_returns_of_matrix hmx _ _ _ _)
  · obtain ⟨found, hfound⟩ := returns_equalPriorityConflict hmx
      (normalizedCandidates candidates)
      (sortedSet ((normalizedCandidates candidates).map Candidate.priorityClass))
    cases found with
    | none => exact absurd (equalPriorityConflict_iff.mp hfound) hequal
    | some reasons =>
      unfold resolveCandidates
      dsimp only
      rw [hfound]
      exact returns_ok _

/-- A reason that is found was read in the matrix. -/
theorem matrix_of_semanticConflict {group : List Candidate} {reasons : List PyStr}
    (h : semanticConflict pack group = .ok reasons) (hne : reasons ≠ []) :
    Returns (matrixOf pack) := by
  obtain ⟨found, hfound, hsort⟩ := bind_ok.mp h
  cases hpairs : combinations group with
  | nil =>
    rw [hpairs] at hfound
    cases hfound
    exact absurd (Except.ok.inj hsort).symm hne
  | cons p pairs =>
    have hp : p ∈ combinations group := by simp [hpairs]
    obtain ⟨reason, -, hreason⟩ := mem_of_mapM_left hfound hp
    obtain ⟨disposition, hd, -⟩ := bind_ok.mp hreason
    obtain ⟨rows, hmx, -⟩ := map_ok.mp hd
    exact ⟨rows, hmx⟩

theorem matrix_of_equalPriorityConflict {normalized : List Candidate} {priorities : List Int}
    {reasons : List PyStr}
    (h : equalPriorityConflict pack normalized priorities = .ok (some reasons)) :
    Returns (matrixOf pack) := by
  induction priorities with
  | nil => cases Except.ok.inj h
  | cons priority priorities ih =>
    rw [equalPriorityConflict] at h
    obtain ⟨found, hfound, h⟩ := bind_ok.mp h
    split_ifs at h with hne
    · exact matrix_of_semanticConflict hfound hne
    · exact ih h

/-- **When the call returns**: the matrix can be read, or nothing in it decides. -/
theorem returns_resolveCandidates {candidates : List (Option Candidate)} :
    Returns (resolveCandidates pack candidates) ↔ Returns (matrixOf pack) ∨
      (EqualPriorityCompatible pack (normalizedCandidates candidates) ∧
        (application pack candidates).conflict = false) := by
  constructor
  · rintro ⟨outcome, h⟩
    by_cases hequal : EqualPriorityCompatible pack (normalizedCandidates candidates)
    · by_cases hconf : (application pack candidates).conflict = true
      · exact .inl (matrix_of_conflict hequal h hconf)
      · exact .inr ⟨hequal, by simpa using hconf⟩
    · left
      unfold resolveCandidates at h
      dsimp only at h
      obtain ⟨found, hfound, -⟩ := bind_ok.mp h
      cases found with
      | none => exact absurd (equalPriorityConflict_iff.mp hfound) hequal
      | some reasons => exact matrix_of_equalPriorityConflict hfound
  · rintro (⟨rows, hmx⟩ | ⟨hequal, hopen⟩)
    · exact returns_of_matrix hmx candidates
    · have happlied := applyCandidates_returns hopen
      exact resolveCandidates_returns hequal happlied

/-! ## Renamed candidates -/

variable {ρ : PyStr → PyStr} {candidates candidates' : List (Option Candidate)}

theorem rename_injective (hρ : Function.Injective ρ) : Function.Injective (Candidate.rename ρ) := by
  rintro ⟨id, type, priority, action, invalidated, evaluable⟩
    ⟨id', type', priority', action', invalidated', evaluable'⟩ h
  obtain ⟨hid, h⟩ := Candidate.mk.inj h
  rw [Candidate.mk.injEq]
  exact ⟨hρ hid, h⟩

theorem evaluableCandidates_perm (h : candidates.Perm candidates') :
    (evaluableCandidates candidates).Perm (evaluableCandidates candidates') :=
  (h.filterMap id).filter _

theorem evaluableCandidates_rename (ρ : PyStr → PyStr) (candidates : List (Option Candidate)) :
    evaluableCandidates (candidates.map (Option.map (Candidate.rename ρ))) =
      (evaluableCandidates candidates).map (Candidate.rename ρ) := by
  unfold evaluableCandidates
  rw [reduceOption_map, filter_map]
  rfl

theorem priorityClass_le_of_sortKey {a b : Candidate} (h : a.sortKey ≤ b.sortKey) :
    a.priorityClass ≤ b.priorityClass := by
  rcases Prod.Lex.toLex_le_toLex.mp h with h | ⟨h, -⟩
  · exact h.le
  · exact h.le

/-- **Under new names the candidates are applied in some order of their priorities.** -/
theorem exists_order (hρ : Function.Injective ρ)
    (h : candidates'.Perm (candidates.map (Option.map (Candidate.rename ρ)))) :
    ∃ order : List Candidate, order.Perm (evaluableCandidates candidates) ∧
      order.Pairwise (fun a b => a.priorityClass ≤ b.priorityClass) ∧
      normalizedCandidates candidates' = order.map (Candidate.rename ρ) := by
  have hinverse : ∀ c : Candidate, (c.rename ρ).rename (Function.invFun ρ) = c := by
    intro c
    show { c with candidateId := Function.invFun ρ (ρ c.candidateId) } = c
    rw [Function.leftInverse_invFun hρ]
  have hperm : (normalizedCandidates candidates').Perm
      ((evaluableCandidates candidates).map (Candidate.rename ρ)) := by
    rw [← evaluableCandidates_rename]
    exact (normalizedCandidates_perm candidates').trans (evaluableCandidates_perm h)
  refine ⟨(normalizedCandidates candidates').map (Candidate.rename (Function.invFun ρ)), ?_, ?_, ?_⟩
  · have hback := hperm.map (Candidate.rename (Function.invFun ρ))
    rw [map_map] at hback
    have hid : Candidate.rename (Function.invFun ρ) ∘ Candidate.rename ρ = id := funext hinverse
    rwa [hid, map_id] at hback
  · rw [pairwise_map]
    exact (sortedBy_pairwise Candidate.sortKey _).imp fun hab => priorityClass_le_of_sortKey hab
  · rw [map_map, map_congr_left (g := id), map_id]
    intro c hc
    obtain ⟨d, -, rfl⟩ := mem_map.mp (hperm.mem_iff.mp hc)
    exact congrArg (Candidate.rename ρ) (hinverse d)

/-- The run over candidates in a given order. -/
def runInOrder (pack : BoundaryPack) (order : List Candidate) : Resolution Candidate :=
  resolve Invalidates (Closed pack) [] [] order

variable {order : List Candidate}

theorem application_rename (h : normalizedCandidates candidates' = order.map (Candidate.rename ρ)) :
    application pack candidates' = ⟨(runInOrder pack order).conflict,
      (runInOrder pack order).kept.map (Candidate.rename ρ),
      (runInOrder pack order).dropped.map (Candidate.rename ρ)⟩ := by
  rw [application, h]
  exact resolve_map (Candidate.rename ρ) (fun _ _ => Iff.rfl) (fun _ _ => Iff.rfl) [] [] order

theorem equalPriorityCompatible_rename :
    EqualPriorityCompatible pack (order.map (Candidate.rename ρ)) ↔
      EqualPriorityCompatible pack order :=
  pairwise_map

/-- What two calls that return decide corresponds iff their runs are the same up to order. -/
theorem corresponds_iff {outcome outcome' : CandidateResolution} (hρ : Function.Injective ρ)
    (horder : normalizedCandidates candidates' = order.map (Candidate.rename ρ))
    (hequal : EqualPriorityCompatible pack (normalizedCandidates candidates))
    (hequal' : EqualPriorityCompatible pack (normalizedCandidates candidates'))
    (h : resolveCandidates pack candidates = .ok outcome)
    (h' : resolveCandidates pack candidates' = .ok outcome') :
    Corresponds ρ (.ok outcome) (.ok outcome') ↔
      SameUpToOrder (application pack candidates) (runInOrder pack order) := by
  have happlication : application pack candidates' = ⟨(runInOrder pack order).conflict,
      (runInOrder pack order).kept.map (Candidate.rename ρ),
      (runInOrder pack order).dropped.map (Candidate.rename ρ)⟩ := application_rename horder
  have hmem : ∀ xs ys : List Candidate,
      (∀ c, c ∈ ys.map (Candidate.rename ρ) ↔ ∃ d ∈ xs, d.rename ρ = c) ↔
        ∀ c, c ∈ xs ↔ c ∈ ys := by
    intro xs ys
    constructor
    · intro hall c
      have hc := hall (c.rename ρ)
      rw [mem_map_of_injective (rename_injective hρ)] at hc
      rw [hc]
      constructor
      · exact fun hx => ⟨c, hx, rfl⟩
      · rintro ⟨d, hd, heq⟩
        exact rename_injective hρ heq ▸ hd
    · intro hall c
      rw [mem_map]
      simp only [hall]
  have hstat : ∀ b b' : Bool, ((if b then ResolutionStatus.conflict else .resolved) =
      if b' then .conflict else .resolved) ↔ b = b' := by decide
  rcases resolveCandidates_cases h with ⟨hnot, -⟩ | ⟨-, hs, hr, hd⟩
  · exact absurd hequal hnot
  rcases resolveCandidates_cases h' with ⟨hnot, -⟩ | ⟨-, hs', hr', hd'⟩
  · exact absurd hequal' hnot
  show outcome.status = outcome'.status ∧ _ ∧ _ ↔ _
  rw [hs, hs', hr, hr', hd, hd', map_toCandidate_suppress, map_toCandidate_suppress, happlication,
    hstat, hmem, hmem]
  exact ⟨fun h => ⟨h.1, h.2.1, h.2.2⟩, fun h => ⟨h.conflict, h.kept, h.dropped⟩⟩

/-! ## Candidates of equal priority -/

theorem types_ne_of_normalizeEntries {seen : List (PyStr × PyStr)}
    {entries : List CompatibilityEntry} (h : normalizeEntries seen entries = .ok rows) :
    ∀ row ∈ rows, row.candidateTypeA ≠ row.candidateTypeB := by
  induction entries generalizing seen rows with
  | nil =>
    cases h
    simp
  | cons raw entries ih =>
    rw [normalizeEntries] at h
    obtain ⟨row, hrow, h⟩ := bind_ok.mp h
    obtain ⟨rows', hrows, h⟩ := bind_ok.mp h
    cases h
    rw [forall_mem_cons]
    refine ⟨?_, ih hrows⟩
    unfold normalizeRow at hrow
    dsimp only at hrow
    obtain ⟨_, -, hrow⟩ := bind_ok.mp hrow
    obtain ⟨_, hself, hrow⟩ := bind_ok.mp hrow
    obtain ⟨_, -, hrow⟩ := bind_ok.mp hrow
    split at hrow
    · cases hrow
      exact check_ok.mp hself
    · cases hrow

/-- Candidates of one type are no compound: the matrix has no pair of equal types. -/
theorem candidateType_ne_of_compound {a b : Candidate} (h : Compound pack a b) :
    a.candidateType ≠ b.candidateType := by
  intro heq
  obtain ⟨rows, hmx, hd⟩ := map_ok.mp h
  obtain ⟨entries, hents, rfl⟩ := map_ok.mp hmx
  rw [heq, dispositionIn] at hd
  have hkey : compatibilityKey b.candidateType b.candidateType =
      (b.candidateType, b.candidateType) := if_pos le_rfl
  have hnone : (sortedBy (fun row : CompatibilityRow => toLex row.key) entries).find?
      (fun row => row.key = compatibilityKey b.candidateType b.candidateType) = none := by
    rw [find?_eq_none]
    intro row hrow hrowkey
    rw [decide_eq_true_eq, hkey] at hrowkey
    obtain ⟨ha, hb⟩ := Prod.mk.inj hrowkey
    exact types_ne_of_normalizeEntries hents row (mem_sortedBy.mp hrow) (ha.trans hb.symm)
  rw [hnone] at hd
  cases hd

variable {cs : List Candidate}

theorem nodup_of_equalPriorityCompatible (h : EqualPriorityCompatible pack cs) : cs.Nodup := by
  refine h.imp fun {a b} hab => ?_
  rintro rfl
  exact candidateType_ne_of_compound (hab rfl) rfl

/-- Any two candidates of a class are a compound. -/
theorem compound_of_mem_class (h : EqualPriorityCompatible pack cs) :
    ∀ g ∈ priorityClasses cs, ∀ c ∈ g, ∀ d ∈ g, c ≠ d → Compound pack c d := by
  intro g hg c hc d hd hne
  obtain ⟨priority, -, rfl⟩ := mem_map.mp hg
  obtain ⟨hc, hpc⟩ := mem_filter.mp hc
  obtain ⟨hd, hpd⟩ := mem_filter.mp hd
  have hsame : c.priorityClass = d.priorityClass := by
    rw [decide_eq_true_eq] at hpc hpd
    rw [hpc, hpd]
  have hsymm : Std.Symm fun a b : Candidate =>
      a.priorityClass = b.priorityClass → Compound pack a b :=
    ⟨fun a b hab heq => compound_comm (hab heq.symm)⟩
  exact Pairwise.forall h hc hd hne hsame

theorem not_closed_of_mem_class (h : EqualPriorityCompatible pack cs) :
    ∀ g ∈ priorityClasses cs, ∀ c ∈ g, ∀ d ∈ g, c ≠ d → ¬ Closed pack c d :=
  fun g hg c hc d hd hne => not_closed_iff.mpr (.inl (compound_of_mem_class h g hg c hc d hd hne))

/-- The classes of candidates, by the priorities `priorities`. -/
def classesBy (priorities : List Int) (cs : List Candidate) : List (List Candidate) :=
  priorities.map fun priority => cs.filter fun c => c.priorityClass = priority

theorem sortedSet_pairwise_lt (xs : List Int) : (sortedSet xs).Pairwise fun p q => p < q := by
  have hle := sortedBy_pairwise id xs.dedup
  exact Pairwise.imp₂ (fun p q h hne => lt_of_le_of_ne h hne) hle (sortedSet_nodup xs)

/-- A sorted arrangement of the candidates is its classes one after the other. -/
theorem flatten_classesBy {cs order : List Candidate} (hperm : order.Perm cs)
    (hsort : order.Pairwise fun a b => a.priorityClass ≤ b.priorityClass) :
    (classesBy (sortedSet (cs.map Candidate.priorityClass)) order).flatten = order := by
  refine flatten_classes (sortedSet_pairwise_lt _) hsort fun c hc => ?_
  exact mem_sortedSet.mpr (mem_map_of_mem (hperm.mem_iff.mp hc))

theorem classesBy_perm {cs order : List Candidate} (hperm : order.Perm cs) :
    Forall₂ Perm (priorityClasses cs)
      (classesBy (sortedSet (cs.map Candidate.priorityClass)) order) := by
  unfold priorityClasses classesBy
  generalize sortedSet (cs.map Candidate.priorityClass) = priorities
  induction priorities with
  | nil => exact .nil
  | cons priority priorities ih => exact .cons (hperm.symm.filter _) ih

/-! ## Enough -/

/-- The order in which the candidates are applied under their own names. -/
theorem normalizedCandidates_sorted (candidates : List (Option Candidate)) :
    (normalizedCandidates candidates).Pairwise fun a b => a.priorityClass ≤ b.priorityClass :=
  (sortedBy_pairwise Candidate.sortKey _).imp fun hab => priorityClass_le_of_sortKey hab

/-- Classes free of order make every order of the candidates end alike. -/
theorem same_of_orderFree
    (hcompat : EqualPriorityCompatible pack (evaluableCandidates candidates))
    (hfree : OrderFree Invalidates (Closed pack) []
      (priorityClasses (evaluableCandidates candidates)))
    (hperm : order.Perm (evaluableCandidates candidates))
    (hsort : order.Pairwise fun a b => a.priorityClass ≤ b.priorityClass) :
    SameUpToOrder (application pack candidates) (runInOrder pack order) := by
  have hnd : ∀ g ∈ priorityClasses (evaluableCandidates candidates), g.Nodup := by
    intro g hg
    obtain ⟨priority, -, rfl⟩ := mem_map.mp hg
    exact (nodup_of_equalPriorityCompatible hcompat).filter _
  have hall : ∀ order : List Candidate, order.Perm (evaluableCandidates candidates) →
      order.Pairwise (fun a b => a.priorityClass ≤ b.priorityClass) →
      SameUpToOrder (runInOrder pack (priorityClasses (evaluableCandidates candidates)).flatten)
        (runInOrder pack order) := by
    intro order hperm hsort
    have hrun := resolve_perm (classesBy_perm hperm) (.refl []) (.refl [])
      (not_closed_of_mem_class hcompat) hnd hfree
    rwa [flatten_classesBy hperm hsort] at hrun
  have hself := hall (normalizedCandidates candidates) (normalizedCandidates_perm candidates)
    (normalizedCandidates_sorted candidates)
  have hother := hall order hperm hsort
  exact ⟨hself.conflict.symm.trans hother.conflict,
    fun c => (hself.kept c).symm.trans (hother.kept c),
    fun c => (hself.dropped c).symm.trans (hother.dropped c)⟩

/-- The candidates are compatible under every name, or under none. -/
theorem equalPriorityCompatible_order (hperm : order.Perm (evaluableCandidates candidates))
    (horder : normalizedCandidates candidates' = order.map (Candidate.rename ρ)) :
    EqualPriorityCompatible pack (normalizedCandidates candidates') ↔
      EqualPriorityCompatible pack (evaluableCandidates candidates) := by
  rw [horder, equalPriorityCompatible_rename, equalPriorityCompatible_perm hperm]

/-- What is refused for equal priorities is refused under every name. -/
theorem corresponds_of_not_compatible (hperm : order.Perm (evaluableCandidates candidates))
    (horder : normalizedCandidates candidates' = order.map (Candidate.rename ρ))
    (hnot : ¬ EqualPriorityCompatible pack (evaluableCandidates candidates)) :
    Corresponds ρ (resolveCandidates pack candidates) (resolveCandidates pack candidates') := by
  have hnorm := (equalPriorityCompatible_perm (normalizedCandidates_perm candidates)).not.mpr hnot
  have hnorm' := (equalPriorityCompatible_order hperm horder).not.mpr hnot
  have hrets : Returns (resolveCandidates pack candidates) ↔
      Returns (resolveCandidates pack candidates') := by
    rw [returns_resolveCandidates, returns_resolveCandidates]
    simp only [hnorm, hnorm', false_and, or_false]
  cases h : resolveCandidates pack candidates with
  | ok outcome =>
    obtain ⟨outcome', h'⟩ := hrets.mp ⟨outcome, h⟩
    rw [h']
    rcases resolveCandidates_cases h with ⟨-, hs, hr, hd⟩ | ⟨hequal, -⟩
    · rcases resolveCandidates_cases h' with ⟨-, hs', hr', hd'⟩ | ⟨hequal', -⟩
      · refine ⟨hs.trans hs'.symm, fun c => ?_, fun c => ?_⟩
        · simp [hr, hr']
        · simp [hd, hd']
      · exact absurd hequal' hnorm'
    · exact absurd hequal hnorm
  | error e =>
    cases h' : resolveCandidates pack candidates' with
    | ok outcome' =>
      obtain ⟨outcome, hok⟩ := hrets.mpr ⟨outcome', h'⟩
      rw [h] at hok
      cases hok
    | error e' => exact trivial

/-- Runs that are the same up to order correspond. -/
theorem corresponds_of_same (hρ : Function.Injective ρ)
    (hperm : order.Perm (evaluableCandidates candidates))
    (horder : normalizedCandidates candidates' = order.map (Candidate.rename ρ))
    (hcompat : EqualPriorityCompatible pack (evaluableCandidates candidates))
    (hsame : SameUpToOrder (application pack candidates) (runInOrder pack order)) :
    Corresponds ρ (resolveCandidates pack candidates) (resolveCandidates pack candidates') := by
  have hnorm := (equalPriorityCompatible_perm (normalizedCandidates_perm candidates)).mpr
    hcompat
  have hnorm' := (equalPriorityCompatible_order hperm horder).mpr hcompat
  have hconf : (application pack candidates').conflict =
      (application pack candidates).conflict := by
    rw [application_rename horder]
    exact hsame.conflict.symm
  have hrets : Returns (resolveCandidates pack candidates) ↔
      Returns (resolveCandidates pack candidates') := by
    rw [returns_resolveCandidates, returns_resolveCandidates, hconf]
    simp only [hnorm, hnorm', true_and]
  cases h : resolveCandidates pack candidates with
  | ok outcome =>
    obtain ⟨outcome', h'⟩ := hrets.mp ⟨outcome, h⟩
    rw [h']
    exact (corresponds_iff hρ horder hnorm hnorm' h h').mpr hsame
  | error e =>
    cases h' : resolveCandidates pack candidates' with
    | ok outcome' =>
      obtain ⟨outcome, hok⟩ := hrets.mpr ⟨outcome', h'⟩
      rw [h] at hok
      cases hok
    | error e' => exact trivial

/-! ## Necessary -/

/-- The name that puts the candidate of this id in front of the others of its priority. -/
def frontName (id s : PyStr) : PyStr := if s = id then [] else CodePoint.ofChar '0' :: s

theorem frontName_injective (id : PyStr) : Function.Injective (frontName id) := by
  intro s t h
  unfold frontName at h
  split_ifs at h with hs ht ht
  · exact hs.trans ht.symm
  · exact (List.cons.inj h).2

variable {c : Candidate}

theorem evaluableCandidates_cons (hc : c.evaluable.getD true = true)
    (cs : List (Option Candidate)) :
    evaluableCandidates (some c :: cs) = c :: evaluableCandidates cs := by
  rw [evaluableCandidates, reduceOption_cons_of_some]
  exact filter_cons_of_pos (p := fun c : Candidate => c.evaluable.getD true) hc

/-- **Any candidate can be made the first of its priority.** -/
theorem exists_front (hc : c ∈ evaluableCandidates candidates) :
    ∃ (ρ : PyStr → PyStr) (candidates' : List (Option Candidate)) (order : List Candidate),
      Function.Injective ρ ∧ candidates'.Perm (candidates.map (Option.map (Candidate.rename ρ))) ∧
      order.Perm (evaluableCandidates candidates) ∧
      order.Pairwise (fun a b => a.priorityClass ≤ b.priorityClass) ∧
      normalizedCandidates candidates' = order.map (Candidate.rename ρ) ∧
      ∀ priorities : List Int, Foremost c (classesBy priorities order) := by
  obtain ⟨hmem, hevaluable⟩ := mem_filter.mp hc
  have hsome : some c ∈ candidates := reduceOption_mem_iff.mp hmem
  have hρ := frontName_injective c.candidateId
  have hcands := ((perm_cons_erase hsome).symm).map
    (Option.map (Candidate.rename (frontName c.candidateId)))
  obtain ⟨order, hperm, hsort, horder⟩ := exists_order hρ hcands
  refine ⟨_, _, order, hρ, hcands, hperm, hsort, horder, ?_⟩
  intro priorities g hg hcg
  obtain ⟨priority, -, rfl⟩ := mem_map.mp hg
  have hpriority : c.priorityClass = priority := by
    simpa using (mem_filter.mp hcg).2
  -- the renamed candidate is inserted in front of those of its priority
  have hinsert : normalizedCandidates ((some c :: candidates.erase (some c)).map
      (Option.map (Candidate.rename (frontName c.candidateId)))) =
      orderedInsert (fun a b : Candidate => a.sortKey ≤ b.sortKey)
        (c.rename (frontName c.candidateId))
        (normalizedCandidates ((candidates.erase (some c)).map
          (Option.map (Candidate.rename (frontName c.candidateId))))) := by
    have hrenamed : (c.rename (frontName c.candidateId)).evaluable.getD true = true := hevaluable
    rw [normalizedCandidates, map_cons, Option.map_some, evaluableCandidates_cons hrenamed]
    rfl
  rw [hinsert, orderedInsert_eq_take_drop] at horder
  have hfilt := congrArg (filter fun c : Candidate => c.priorityClass = priority) horder
  have hnone : ∀ cs : List Candidate, (cs.takeWhile fun b =>
      ¬ (c.rename (frontName c.candidateId)).sortKey ≤ b.sortKey).filter
        (fun c => c.priorityClass = priority) = [] := by
    intro cs
    rw [filter_eq_nil_iff]
    intro b hb hbpriority
    rw [decide_eq_true_eq] at hbpriority
    have hlt := mem_takeWhile_imp hb
    rw [decide_eq_true_eq, not_le] at hlt
    rcases Prod.Lex.toLex_lt_toLex.mp hlt with hlt | ⟨-, hlt⟩
    · exact hlt.ne (hbpriority.trans hpriority.symm)
    · have hname : (c.rename (frontName c.candidateId)).candidateId = [] := if_pos rfl
      rw [hname] at hlt
      exact not_lt_nil _ hlt
  have hkeep : (c.rename (frontName c.candidateId)).priorityClass = priority := hpriority
  rw [filter_append, hnone, nil_append, filter_cons_of_pos (by simpa using hkeep),
    filter_map] at hfilt
  have hhead := congrArg head? hfilt
  rw [head?_cons, head?_map] at hhead
  obtain ⟨d, hd, heq⟩ := Option.map_eq_some_iff.mp hhead.symm
  rw [rename_injective hρ heq] at hd
  exact hd

theorem foremost_order_matters (hmx : matrixOf pack = .ok rows)
    (hcompat : EqualPriorityCompatible pack (evaluableCandidates candidates))
    (h : NamingIndependent pack candidates) (hc : c ∈ evaluableCandidates candidates) :
    ∃ order : List Candidate, order.Perm (evaluableCandidates candidates) ∧
      order.Pairwise (fun a b => a.priorityClass ≤ b.priorityClass) ∧
      (∀ priorities : List Int, Foremost c (classesBy priorities order)) ∧
      SameUpToOrder (application pack candidates) (runInOrder pack order) := by
  obtain ⟨ρ, candidates', order, hρ, hcands, hperm, hsort, horder, hfront⟩ :=
    exists_front hc
  refine ⟨order, hperm, hsort, hfront, ?_⟩
  obtain ⟨outcome, hok⟩ := returns_of_matrix hmx candidates
  obtain ⟨outcome', hok'⟩ := returns_of_matrix hmx candidates'
  have hcorr := h ρ hρ candidates' hcands
  rw [hok, hok'] at hcorr
  exact (corresponds_iff hρ horder
    ((equalPriorityCompatible_perm (normalizedCandidates_perm candidates)).mpr hcompat)
    ((equalPriorityCompatible_order hperm horder).mpr hcompat) hok hok').mp hcorr

/-- A matrix that cannot be read makes no two candidates compatible. -/
theorem orderFree_of_no_matrix (hmx : ¬ Returns (matrixOf pack))
    (hcompat : EqualPriorityCompatible pack cs) :
    OrderFree Invalidates (Closed pack) [] (priorityClasses cs) := by
  refine orderFree_of_subsingleton (fun g hg c hc d hd => ?_) []
  by_contra hne
  obtain ⟨rows, hrows, -⟩ := map_ok.mp (compound_of_mem_class hcompat g hg c hc d hd hne)
  exact hmx ⟨rows, hrows⟩

/-- **When names and order do not matter**: exactly when candidates of equal priority are refused
anyway, or the order within the classes of equal priority is free. -/
theorem namingIndependent_iff (pack : BoundaryPack) (candidates : List (Option Candidate)) :
    NamingIndependent pack candidates ↔
      (EqualPriorityCompatible pack (evaluableCandidates candidates) →
        OrderFree Invalidates (Closed pack) []
          (priorityClasses (evaluableCandidates candidates))) := by
  constructor
  · intro h hcompat
    by_cases hmx : Returns (matrixOf pack)
    · obtain ⟨rows, hmx⟩ := hmx
      by_contra hfree
      obtain ⟨c, hc, d, hd, hdiff⟩ := exists_order_matters
        (not_closed_of_mem_class hcompat) hfree
      have hmem : ∀ x ∈ (priorityClasses (evaluableCandidates candidates)).flatten,
          x ∈ evaluableCandidates candidates := by
        intro x hx
        obtain ⟨g, hg, hx⟩ := mem_flatten.mp hx
        obtain ⟨priority, -, rfl⟩ := mem_map.mp hg
        exact (mem_filter.mp hx).1
      obtain ⟨order₁, hperm₁, hsort₁, hfront₁, hsame₁⟩ :=
        foremost_order_matters hmx hcompat h (hmem c hc)
      obtain ⟨order₂, hperm₂, hsort₂, hfront₂, hsame₂⟩ :=
        foremost_order_matters hmx hcompat h (hmem d hd)
      have hnd := nodup_of_equalPriorityCompatible hcompat
      have hflat₁ := flatten_classesBy hperm₁ hsort₁
      have hflat₂ := flatten_classesBy hperm₂ hsort₂
      refine hdiff _ _ (classesBy_perm hperm₁) (classesBy_perm hperm₂) (hfront₁ _) (hfront₂ _)
        [] [] [] [] (.refl []) (.refl []) ?_ ?_ ?_
      · rw [hflat₁]
        exact hperm₁.nodup_iff.mpr hnd
      · rw [hflat₂]
        exact hperm₂.nodup_iff.mpr hnd
      · rw [hflat₁, hflat₂]
        exact ⟨hsame₁.conflict.symm.trans hsame₂.conflict,
          fun x => (hsame₁.kept x).symm.trans (hsame₂.kept x),
          fun x => (hsame₁.dropped x).symm.trans (hsame₂.dropped x)⟩
    · exact orderFree_of_no_matrix hmx hcompat
  · intro hfree ρ hρ candidates' hcands
    obtain ⟨order, hperm, hsort, horder⟩ := exists_order hρ hcands
    by_cases hcompat : EqualPriorityCompatible pack (evaluableCandidates candidates)
    · exact corresponds_of_same hρ hperm horder hcompat
        (same_of_orderFree hcompat (hfree hcompat) hperm hsort)
    · exact corresponds_of_not_compatible hperm horder hcompat

/-- A matrix that declares two types a compatible compound. -/
def compoundPack : BoundaryPack :=
  ⟨some [⟨py "TYPE.A", py "TYPE.B", py "COMPATIBLE_COMPOUND"⟩]⟩

/-- Two candidates of one priority, the first of which invalidates the second. -/
def invalidatingPair : List (Option Candidate) :=
  [some ⟨py "C1", py "TYPE.A", 3, py "CENSOR_GAP", none, none⟩,
    some ⟨py "C2", py "TYPE.B", 3, py "CONTINUATION", some [py "CENSOR_GAP"], none⟩]

/-- **Which name sorts first decides whether the second candidate is suppressed.** -/
theorem invalidatingPair_depends : ¬ ∀ (pack : BoundaryPack) (candidates : List (Option Candidate)),
      NamingIndependent pack candidates := by
  intro h
  have hcorr := h compoundPack invalidatingPair (frontName (py "C2"))
    (frontName_injective _) _ (.refl _)
  have hown : (resolveCandidates compoundPack invalidatingPair).toOption.map
      (fun outcome => outcome.suppressed.length) = some 1 := by
    decide +kernel
  have hother : (resolveCandidates compoundPack (invalidatingPair.map
      (Option.map (Candidate.rename (frontName (py "C2")))))).toOption.map
      (fun outcome => outcome.suppressed.length) = some 0 := by
    decide +kernel
  obtain ⟨outcome, hok, hlen⟩ := Option.map_eq_some_iff.mp hown
  obtain ⟨outcome', hok', hlen'⟩ := Option.map_eq_some_iff.mp hother
  rw [eq_ok_of_toOption hok, eq_ok_of_toOption hok'] at hcorr
  have hsuppressed := hcorr.2.2
  rw [length_eq_zero_iff.mp hlen'] at hsuppressed
  obtain ⟨c, hc⟩ := length_eq_one_iff.mp hlen
  rw [hc] at hsuppressed
  exact absurd ((hsuppressed (c.toCandidate.rename (frontName (py "C2")))).mpr
    ⟨c.toCandidate, by simp, rfl⟩) (by simp)

end OvcReplay.C2e
