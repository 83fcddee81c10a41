import OvcReplay.Json.Dumps
import OvcReplay.Lists.Loops
import OvcReplay.Lists.Saturation

/-! # Invalidation plans

`assurance.py`, the impact of a change: which refs of a universe a change invalidates along the
dependencies that are declared, and the proof of what it leaves. A semantic change invalidates what
can be reached from it, an ambiguous one everything and any other one what it changes; the plan
does not depend on the order in which edges and universe are given. -/

namespace OvcReplay.SharedSystems

open Python Json

/-- `SharedAssuranceError`, with its code. -/
structure AssuranceError where
  code : PyStr
  deriving DecidableEq, Repr

/-- `_refs`, with the field in upper case. -/
def checkRefs (values : List PyStr) (field : PyStr) (allowEmpty : Bool) :
    Except AssuranceError Unit := do
  check (values ≠ [] ∨ allowEmpty = true) ⟨field ++ py "_REQUIRED"⟩
  check ([] ∉ values) ⟨field ++ py "_INVALID"⟩
  check values.Nodup ⟨field ++ py "_DUPLICATE"⟩

theorem checkRefs_ok {values : List PyStr} {field : PyStr} {allowEmpty : Bool} {u : Unit} :
    checkRefs values field allowEmpty = .ok u ↔
      (values ≠ [] ∨ allowEmpty = true) ∧ [] ∉ values ∧ values.Nodup := by
  simp only [checkRefs, bind_ok, check_ok, exists_and_left, exists_const]

/-- `CHANGE_CLASSIFICATIONS`. -/
inductive ChangeClassification where
  | semantic
  | implementationEquivalent
  | ambiguous
  deriving DecidableEq, Repr

/-- The name of a classification. -/
def ChangeClassification.text : ChangeClassification → PyStr
  | .semantic => py "SEMANTIC"
  | .implementationEquivalent => py "IMPLEMENTATION_EQUIVALENT"
  | .ambiguous => py "AMBIGUOUS"

/-- `IMPACT_OBLIGATIONS`. -/
inductive ImpactObligation where
  | replay
  | rebuild
  | retest
  | staleQualification
  | quarantine
  deriving DecidableEq, Repr

/-- The name of an obligation. -/
def ImpactObligation.text : ImpactObligation → PyStr
  | .replay => py "REPLAY"
  | .rebuild => py "REBUILD"
  | .retest => py "RETEST"
  | .staleQualification => py "STALE_QUALIFICATION"
  | .quarantine => py "QUARANTINE"

/-- `ChangeAssessment`, what a plan reads of it; the constructor has checked it. -/
structure ChangeAssessment where
  changeId : PyStr
  changedRefs : List PyStr
  classification : ChangeClassification
  changeId_ne : changeId ≠ []
  checked : checkRefs changedRefs (py "CHANGED_REFS") false = .ok ()

/-- `ImpactDependencyEdge`; the constructor has checked it. -/
structure ImpactDependencyEdge where
  sourceRef : PyStr
  dependentRef : PyStr
  obligation : ImpactObligation
  sourceRef_ne : sourceRef ≠ []
  dependentRef_ne : dependentRef ≠ []
  noSelfEdge : sourceRef ≠ dependentRef

namespace ImpactDependencyEdge

/-- The key of an edge. -/
def key (edge : ImpactDependencyEdge) : PyStr × PyStr × PyStr :=
  (edge.sourceRef, edge.dependentRef, edge.obligation.text)

/-- The two ends of an edge. -/
def ends (edge : ImpactDependencyEdge) : PyStr × PyStr := (edge.sourceRef, edge.dependentRef)

end ImpactDependencyEdge

/-- `ReplayObligation`; its subject is one of the refs, so the constructor does not raise. -/
structure ReplayObligation where
  subjectRef : PyStr
  reason : PyStr
  status : PyStr := py "REQUIRED"
  deriving DecidableEq

/-- `InvalidationPlan`. -/
structure InvalidationPlan where
  changeId : PyStr
  invalidatedRefs : List PyStr
  unaffectedRefs : List PyStr
  replayObligations : List ReplayObligation
  conservativeFallback : Bool
  unaffectedProof : PyStr
  unresolvedImpacts : List PyStr
  deriving DecidableEq

/-! ## The plan -/

/-- The members of `invalidated`, after the loop. -/
def invalidatedSet (assessment : ChangeAssessment) (edges : List ImpactDependencyEdge)
    (universeRefs : List PyStr) : List PyStr :=
  match assessment.classification with
  | .ambiguous => universeRefs
  | .semantic => Lists.saturate (edges.map ImpactDependencyEdge.ends) assessment.changedRefs
  | .implementationEquivalent => assessment.changedRefs

/-- The reason of the replay obligations. -/
def replayReason : ChangeClassification → PyStr
  | .ambiguous => py "AMBIGUOUS_CONSERVATIVE_FALLBACK"
  | .implementationEquivalent => py "IMPLEMENTATION_EQUIVALENCE_RETEST"
  | .semantic => py "EXPLICIT_DEPENDENCY_CLOSURE"

/-- The sort key of an edge key. -/
def edgeOrder (key : PyStr × PyStr × PyStr) : PyStr ×ₗ PyStr ×ₗ PyStr :=
  toLex (key.1, toLex key.2)

/-- `proof_payload`. -/
def proofPayload (assessment : ChangeAssessment) (edges : List ImpactDependencyEdge)
    (universeRefs invalidated unaffected : List PyStr) : PyVal :=
  .ofRecord
    [(py "change_id", .str assessment.changeId),
      (py "classification", .str assessment.classification.text),
      (py "universe", .ofStrs (sortedBy id universeRefs)),
      (py "edges", .list ((sortedBy edgeOrder (edges.map ImpactDependencyEdge.key)).map fun key =>
        .tuple [.str key.1, .str key.2.1, .str key.2.2])),
      (py "invalidated_refs", .ofStrs invalidated),
      (py "unaffected_refs", .ofStrs unaffected)]

variable (P : Platform)

/-- `_hash`. -/
def assuranceHash (value : PyVal) : Except AssuranceError PyStr :=
  (do
    let tree ← dumps P value
    let raw ← encodeUtf8 tree.render
    return (P.sha256 raw).text).mapError fun _ => ⟨py "NON_CANONICAL_ASSURANCE_VALUE"⟩

/-- **`build_invalidation_plan`.** -/
def buildInvalidationPlan (assessment : ChangeAssessment) (edges : List ImpactDependencyEdge)
    (universeRefs : List PyStr) : Except AssuranceError InvalidationPlan := do
  checkRefs universeRefs (py "UNIVERSE") false
  check (∀ ref ∈ assessment.changedRefs, ref ∈ universeRefs) ⟨py "CHANGE_REF_UNKNOWN"⟩
  check (edges.map ImpactDependencyEdge.key).Nodup ⟨py "IMPACT_EDGE_DUPLICATE"⟩
  check (∀ edge ∈ edges, edge.sourceRef ∈ universeRefs ∧ edge.dependentRef ∈ universeRefs)
    ⟨py "IMPACT_EDGE_REF_UNKNOWN"⟩
  let conservative := decide (assessment.classification = .ambiguous)
  let members := invalidatedSet assessment edges universeRefs
  let invalidated := sortedBy id members
  let unaffected := sortedBy id (universeRefs.filter fun ref => ref ∉ members)
  let proof ← assuranceHash P (proofPayload assessment edges universeRefs invalidated unaffected)
  return {
    changeId := assessment.changeId
    invalidatedRefs := invalidated
    unaffectedRefs := unaffected
    replayObligations := invalidated.map fun ref =>
      { subjectRef := ref, reason := replayReason assessment.classification }
    conservativeFallback := conservative
    unaffectedProof := proof
    unresolvedImpacts := if conservative then [py "DECLARED_UNIVERSE_IMPACT_UNRESOLVED"] else [] }

/-! ## Exactness -/

/-- One ref depends on another. -/
def DependsOn (edges : List ImpactDependencyEdge) (source dependent : PyStr) : Prop :=
  ∃ edge ∈ edges, edge.sourceRef = source ∧ edge.dependentRef = dependent

/-- **What a change invalidates.** -/
def Invalidates (assessment : ChangeAssessment) (edges : List ImpactDependencyEdge)
    (universeRefs : List PyStr) (ref : PyStr) : Prop :=
  match assessment.classification with
  | .ambiguous => ref ∈ universeRefs
  | .semantic => ∃ changed ∈ assessment.changedRefs,
      Relation.ReflTransGen (DependsOn edges) changed ref
  | .implementationEquivalent => ref ∈ assessment.changedRefs

variable {P} {assessment : ChangeAssessment} {edges edges' : List ImpactDependencyEdge}
  {universeRefs universeRefs' : List PyStr} {plan : InvalidationPlan}

theorem mem_ends {source dependent : PyStr} :
    (source, dependent) ∈ edges.map ImpactDependencyEdge.ends ↔
      DependsOn edges source dependent := by
  simp only [List.mem_map, ImpactDependencyEdge.ends, Prod.mk.injEq, DependsOn]

theorem mem_invalidatedSet {ref : PyStr} :
    ref ∈ invalidatedSet assessment edges universeRefs ↔
      Invalidates assessment edges universeRefs ref := by
  rw [invalidatedSet, Invalidates]
  cases assessment.classification with
  | semantic =>
    simp only [Lists.mem_saturate_iff, mem_ends]
  | implementationEquivalent => exact Iff.rfl
  | ambiguous => exact Iff.rfl

/-- What a plan that is built has checked, and what it is. -/
theorem buildInvalidationPlan_ok
    (h : buildInvalidationPlan P assessment edges universeRefs = .ok plan) :
    universeRefs.Nodup ∧ (∀ ref ∈ assessment.changedRefs, ref ∈ universeRefs) ∧
      (∀ edge ∈ edges, edge.sourceRef ∈ universeRefs ∧ edge.dependentRef ∈ universeRefs) ∧
      plan.invalidatedRefs = sortedBy id (invalidatedSet assessment edges universeRefs) ∧
      plan.unaffectedRefs = sortedBy id
        (universeRefs.filter fun ref => ref ∉ invalidatedSet assessment edges universeRefs) := by
  simp only [buildInvalidationPlan, bind_ok, check_ok, checkRefs_ok, pure_ok, exists_and_left,
    exists_const] at h
  obtain ⟨⟨-, -, huniv⟩, hchg, -, hedges, proof, -, rfl⟩ := h
  exact ⟨huniv, hchg, hedges, rfl, rfl⟩

theorem nodup_invalidatedSet (huniv : universeRefs.Nodup) :
    (invalidatedSet assessment edges universeRefs).Nodup := by
  have hchg := (checkRefs_ok.mp assessment.checked).2.2
  rw [invalidatedSet]
  cases assessment.classification with
  | semantic => exact Lists.nodup_saturate hchg
  | implementationEquivalent => exact hchg
  | ambiguous => exact huniv

/-- Edges do not lead out of the universe. -/
theorem invalidatedSet_subset (hchg : ∀ ref ∈ assessment.changedRefs, ref ∈ universeRefs)
    (hedges : ∀ edge ∈ edges, edge.sourceRef ∈ universeRefs ∧ edge.dependentRef ∈ universeRefs) :
    invalidatedSet assessment edges universeRefs ⊆ universeRefs := by
  intro ref href
  rw [mem_invalidatedSet, Invalidates] at href
  revert href
  cases assessment.classification with
  | semantic =>
    rintro ⟨changed, hmem, hpath⟩
    rcases hpath.cases_tail with rfl | ⟨_, -, edge, hedge, -, rfl⟩
    · exact hchg _ hmem
    · exact (hedges edge hedge).2
  | implementationEquivalent => exact hchg ref
  | ambiguous => exact id

/-- **Invalidated and unaffected refs partition the universe.** -/
theorem plan_perm (h : buildInvalidationPlan P assessment edges universeRefs = .ok plan) :
    (plan.invalidatedRefs ++ plan.unaffectedRefs).Perm universeRefs := by
  obtain ⟨huniv, hchg, hedges, hinval, hunaffected⟩ := buildInvalidationPlan_ok h
  rw [hinval, hunaffected]
  refine ((sortedBy_perm _ _).append (sortedBy_perm _ _)).trans ?_
  exact Lists.append_filter_notMem_perm (nodup_invalidatedSet huniv)
    (invalidatedSet_subset hchg hedges) huniv

/-! ## Orders -/

theorem sortedBy_id_eq_of_perm {xs ys : List PyStr} (h : xs.Perm ys) :
    sortedBy id xs = sortedBy id ys :=
  sortedBy_eq_of_perm (fun _ _ _ _ => id) h

theorem edgeOrder_injective : Function.Injective edgeOrder := by
  rintro ⟨a, b, c⟩ ⟨a', b', c'⟩ h
  simpa [edgeOrder] using h

/-- What is invalidated does not depend on the orders. -/
theorem invalidatedSet_perm (hedges : edges'.Perm edges) (huniv : universeRefs'.Perm universeRefs)
    (hnd : universeRefs.Nodup) :
    (invalidatedSet assessment edges' universeRefs').Perm
      (invalidatedSet assessment edges universeRefs) := by
  rw [List.perm_ext_iff_of_nodup (nodup_invalidatedSet (huniv.nodup_iff.mpr hnd))
    (nodup_invalidatedSet hnd)]
  intro ref
  have hdepends : DependsOn edges' = DependsOn edges := by
    funext source dependent
    simp only [DependsOn, hedges.mem_iff]
  rw [mem_invalidatedSet, mem_invalidatedSet, Invalidates, Invalidates, hdepends]
  simp only [huniv.mem_iff]

/-- **A plan depends on what the edges and the universe are**, and not on their orders. -/
theorem buildInvalidationPlan_perm (hedges : edges'.Perm edges)
    (huniv : universeRefs'.Perm universeRefs)
    (h : buildInvalidationPlan P assessment edges universeRefs = .ok plan) :
    buildInvalidationPlan P assessment edges' universeRefs' = .ok plan := by
  have hnd := (buildInvalidationPlan_ok h).1
  have hmems : (invalidatedSet assessment edges' universeRefs').Perm
      (invalidatedSet assessment edges universeRefs) :=
    invalidatedSet_perm hedges huniv hnd
  have hfilt : (universeRefs'.filter fun ref =>
    ref ∉ invalidatedSet assessment edges' universeRefs').Perm
      (universeRefs.filter fun ref => ref ∉ invalidatedSet assessment edges universeRefs) := by
    simp only [hmems.mem_iff]
    exact huniv.filter _
  have hkeys : sortedBy edgeOrder (edges'.map ImpactDependencyEdge.key) =
      sortedBy edgeOrder (edges.map ImpactDependencyEdge.key) :=
    sortedBy_eq_of_perm (fun _ _ _ _ heq => edgeOrder_injective heq)
      (hedges.map ImpactDependencyEdge.key)
  have hchecks : checkRefs universeRefs' (py "UNIVERSE") false = checkRefs universeRefs (py "UNIVERSE") false := by
    have hnil : universeRefs' = [] ↔ universeRefs = [] := by
      rw [← List.length_eq_zero_iff, huniv.length_eq, List.length_eq_zero_iff]
    simp only [checkRefs, Ne, hnil, huniv.mem_iff, huniv.nodup_iff]
  rw [← h]
  simp only [buildInvalidationPlan, hchecks, proofPayload, huniv.mem_iff, hedges.mem_iff, hkeys,
    (hedges.map ImpactDependencyEdge.key).nodup_iff, sortedBy_id_eq_of_perm huniv,
    sortedBy_id_eq_of_perm hmems, sortedBy_id_eq_of_perm hfilt]

/-! ## Plans -/

/-- **Invalidation is exact reachability.** -/
theorem invalidation_exact (P : Platform) (assessment : ChangeAssessment)
    (edges : List ImpactDependencyEdge) (universeRefs : List PyStr) (plan : InvalidationPlan)
    (h : buildInvalidationPlan P assessment edges universeRefs = .ok plan) :
    (∀ ref, ref ∈ plan.invalidatedRefs ↔ Invalidates assessment edges universeRefs ref) ∧
      universeRefs.Nodup ∧ (plan.invalidatedRefs ++ plan.unaffectedRefs).Perm universeRefs ∧
      ∀ edges' universeRefs', edges'.Perm edges → universeRefs'.Perm universeRefs →
        buildInvalidationPlan P assessment edges' universeRefs' = .ok plan := by
  obtain ⟨hnd, -, -, hinval, -⟩ := buildInvalidationPlan_ok h
  refine ⟨fun ref => ?_, hnd, plan_perm h, fun edges' universeRefs' hedges huniv =>
    buildInvalidationPlan_perm hedges huniv h⟩
  rw [hinval, mem_sortedBy, mem_invalidatedSet]

/-- Two refs that depend on each other, and one on its own. -/
def twoInCycle : List ImpactDependencyEdge :=
  [⟨py "a", py "b", .replay, by decide, by decide, by decide⟩,
    ⟨py "b", py "a", .rebuild, by decide, by decide, by decide⟩]

/-- A semantic change of one ref of a cycle invalidates the other and leaves the rest. -/
theorem invalidation_exact_cycle : ∃ plan, buildInvalidationPlan .reference
        ⟨py "change", [py "a"], .semantic, by decide, by decide⟩ twoInCycle
        [py "a", py "b", py "c"] = .ok plan ∧
      plan.invalidatedRefs = [py "a", py "b"] ∧ plan.unaffectedRefs = [py "c"] ∧
      (plan.invalidatedRefs ++ plan.unaffectedRefs).Perm [py "a", py "b", py "c"] := by
  have hrets : Returns (buildInvalidationPlan .reference
      ⟨py "change", [py "a"], .semantic, by decide, by decide⟩ twoInCycle
      [py "a", py "b", py "c"]) := by decide +kernel
  obtain ⟨plan, hplan⟩ := hrets
  refine ⟨plan, hplan, ?_, ?_, (invalidation_exact _ _ _ _ plan hplan).2.2.1⟩
  · rw [(buildInvalidationPlan_ok hplan).2.2.2.1]
    decide +kernel
  · rw [(buildInvalidationPlan_ok hplan).2.2.2.2]
    decide +kernel

end OvcReplay.SharedSystems

