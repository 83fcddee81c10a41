import OvcReplay.C2p.Events
import OvcReplay.Python.Equal

/-! # Adjudication of C2P v0.2

`adjudication.py`: the assertions in the hard scope of a candidate, the comparison of the candidate
with each of them, and the decision. The decision is new, update, ambiguous or not evaluable as the
comparisons say, and does not depend on the order of the assertions. -/

namespace OvcReplay.C2p

open Python Json

variable (P : Platform)

/-- What adjudication raises. -/
inductive AdjudicationError where
  | base (e : Error)
  | adjudication (marker : PyStr)
  deriving DecidableEq, Repr

/-! ## Records -/

/-- The fields that scope a candidate or an assertion. -/
structure ScopeFields where
  objectPackId : PyStr
  structuralRoleId : PyStr
  geometryKindId : PyStr
  hardScope : List (PyKey × PyVal)
  built : PyVal.Built (.dict hardScope)

/-- A candidate, with the fields that adjudication reads. -/
structure Candidate where
  candidateId : PyStr
  scope : ScopeFields
  firstValidTime : PyStr
  evaluationCutoff : PyStr

/-- An object assertion, with the fields that adjudication reads. -/
structure ObjectAssertion where
  objectAssertionId : PyStr
  scope : ScopeFields

/-- An object pack, with the fields that adjudication reads. -/
structure ObjectPack where
  objectPackId : PyStr
  status : PyStr
  realSourceForbidden : Bool
  /-- `matching_contract.identity_predicates`. -/
  identityPredicates : List PyStr

/-- `MechanicalEvidence`. -/
structure MechanicalEvidence where
  subjectId : PyStr
  fixtureStructureKey : PyStr
  fixtureStep : Int
  coordinateClass : PyStr
  identityDefiningGeometry : List (PyKey × PyVal)

/-! ## `reference_retrieve` -/

/-- An assertion's scope fields equal a candidate's. -/
def ScopeFields.same (assertion candidate : ScopeFields) : Bool :=
  decide (assertion.objectPackId = candidate.objectPackId) &&
    decide (assertion.structuralRoleId = candidate.structuralRoleId) &&
    decide (assertion.geometryKindId = candidate.geometryKindId) &&
    PyVal.pyEq (.dict assertion.hardScope) (.dict candidate.hardScope)

variable (candidate : Candidate)

/-- `_candidate_scope_assertions`. -/
def candidateScopeAssertions (assertions : List ObjectAssertion) : List ObjectAssertion :=
  assertions.filter fun assertion => assertion.scope.same candidate.scope

/-- The payload of a retrieval query. -/
def queryPayload (pack : ObjectPack) : PyVal :=
  .ofRecord
    [(py "schema", .str (py "c2p-reference-retrieval-query/v0.2")),
      (py "object_pack_id", .str pack.objectPackId),
      (py "structural_role_id", .str candidate.scope.structuralRoleId),
      (py "geometry_kind_id", .str candidate.scope.geometryKindId),
      (py "hard_scope", .dict candidate.scope.hardScope),
      (py "mode", .str (py "EXHAUSTIVE_REFERENCE"))]

/-- `reference_retrieve`. -/
def referenceRetrieve (assertions : List ObjectAssertion)
    (pack : ObjectPack) : Except AdjudicationError (PyStr × List ObjectAssertion) := do
  check (candidate.scope.objectPackId = pack.objectPackId)
    (.adjudication (py "C2P_OBJECT_PACK_MISMATCH"))
  check (pack.status = py "SYNTHETIC_ONLY_NONEMPIRICAL" ∧ pack.realSourceForbidden = true)
    (.adjudication (py "C2P_WP3_SYNTHETIC_PACK_REQUIRED"))
  let inScope := candidateScopeAssertions candidate assertions
  check (inScope.length ≤ 2048)
    (.adjudication (py "C2P_REFERENCE_PROOF_ENVELOPE_CANDIDATE_LIMIT"))
  let queryId ← (hash P (queryPayload candidate pack)).mapError .base
  return (queryId, sortedBy ObjectAssertion.objectAssertionId inScope)

/-! ## `_predicate_results` -/

/-- The outcome of one comparison. -/
inductive Outcome where
  | pass
  | fail
  | notEvaluable
  deriving DecidableEq, Repr

/-- The text of an outcome. -/
def Outcome.text : Outcome → PyStr
  | .pass => py "PASS"
  | .fail => py "FAIL"
  | .notEvaluable => py "NOT_EVALUABLE"

/-- `PASS` where the condition holds. -/
def Outcome.ofBool (condition : Bool) : Outcome := if condition = true then .pass else .fail

/-- The predicates that are implemented. -/
def supportedPredicates : List PyStr :=
  [py "same_hard_scope", py "same_fixture_structure_key", py "same_coordinate_class",
    py "monotonic_fixture_step"]

variable (evidence : MechanicalEvidence)

variable (assertion : ObjectAssertion)

/-- The outcome of a supported predicate. -/
def predicateOutcome (assertionEvidence : Option MechanicalEvidence)
    (predicate : PyStr) : Outcome :=
  if predicate = py "same_hard_scope" then
    .ofBool (PyVal.pyEq (.dict candidate.scope.hardScope) (.dict assertion.scope.hardScope))
  else
    match assertionEvidence with
    | none => .notEvaluable
    | some other =>
      if predicate = py "same_fixture_structure_key" then
        .ofBool (decide (evidence.fixtureStructureKey = other.fixtureStructureKey))
      else if predicate = py "same_coordinate_class" then
        .ofBool (decide (evidence.coordinateClass = other.coordinateClass))
      else .ofBool (decide (other.fixtureStep < evidence.fixtureStep))

/-- The results of the pack's predicates, each name once. -/
def outcomes
    (assertionEvidence : Option MechanicalEvidence) (pack : ObjectPack) : Dict PyStr Outcome :=
  Dict.ofItems (pack.identityPredicates.map fun predicate =>
    (predicate, predicateOutcome candidate evidence assertion assertionEvidence predicate))

/-- `_predicate_results`. -/
def predicateResults (assertionEvidence : Option MechanicalEvidence)
    (pack : ObjectPack) : Except AdjudicationError (Dict PyStr Outcome) := do
  check (pack.identityPredicates.length ≤ 16)
    (.adjudication (py "C2P_REFERENCE_PROOF_ENVELOPE_PREDICATE_LIMIT"))
  match pack.identityPredicates.find? fun predicate => decide (predicate ∉ supportedPredicates) with
  | some unknown =>
    .error (.adjudication (py "C2P_UNIMPLEMENTED_IDENTITY_PREDICATE:" ++ unknown))
  | none => return outcomes candidate evidence assertion assertionEvidence pack

/-! ## `adjudicate_candidate` -/

/-- An evidence vector. -/
structure EvidenceVector where
  payload : PyVal
  evidenceVectorId : PyStr

/-- An excluded assertion, with its reason codes. -/
structure Exclusion where
  assertionId : PyStr
  reasonCodes : List PyStr

/-- What the loop collects. -/
structure Tally where
  evidenceVectors : List EvidenceVector
  eligible : List PyStr
  excluded : List Exclusion
  unresolvedPotentialMatch : Bool

/-- One pass of the loop, before it is collected. -/
structure PairRow where
  assertionId : PyStr
  vector : EvidenceVector
  results : Dict PyStr Outcome

/-- `candidate["hard_scope"]["scale"] == assertion["hard_scope"]["scale"]`. -/
def sameScale : Except AdjudicationError Bool :=
  match Dict.get? candidate.scope.hardScope (.str (py "scale")),
    Dict.get? assertion.scope.hardScope (.str (py "scale")) with
  | some scale, some scale' => .ok (PyVal.pyEq scale scale')
  | _, _ => .error (.base (.python .keyError))

/-- The payload of an evidence vector. -/
def vectorPayload (assertionId : PyStr)
    (assertionEvidence : Option MechanicalEvidence) (pack : ObjectPack) (scale : Bool)
    (results : Dict PyStr Outcome) : PyVal :=
  .ofRecord
    [(py "schema", .str (py "c2p-evidence-vector/v0.2")),
      (py "object_pack_id", .str pack.objectPackId),
      (py "candidate_id", .str candidate.candidateId),
      (py "assertion_id", .str assertionId),
      (py "geometry_residuals", .ofRecord
        [(py "candidate_geometry", .dict evidence.identityDefiningGeometry),
          (py "assertion_geometry",
            (assertionEvidence.map fun other => .dict other.identityDefiningGeometry).getD .none)]),
      (py "temporal_continuity", .ofRecord
        [(py "candidate_fixture_step", .int evidence.fixtureStep),
          (py "assertion_fixture_step",
            (assertionEvidence.map fun other => .int other.fixtureStep).getD .none)]),
      (py "topology_compatibility", .dict []),
      (py "relation_compatibility", .dict []),
      (py "scale_compatibility", .ofRecord [(py "same_scale", .bool scale)]),
      (py "availability_evaluability", .ofRecord
        [(py "mechanical_evidence",
          .str (if assertionEvidence.isSome then py "AVAILABLE" else py "NOT_EVALUABLE"))]),
      (py "predicate_results", .ofRecord (results.map fun p => (p.1, .str p.2.text)))]

/-- The comparison of one retrieved assertion. -/
def pairRow (evidenceById : Dict PyStr MechanicalEvidence) (pack : ObjectPack)
    (assertion : ObjectAssertion) : Except AdjudicationError PairRow := do
  let assertionId := assertion.objectAssertionId
  let assertionEvidence := Dict.get? evidenceById assertionId
  check (∀ other ∈ assertionEvidence, other.subjectId = assertionId)
    (.adjudication (py "C2P_ASSERTION_EVIDENCE_BINDING_MISMATCH"))
  let results ← predicateResults candidate evidence assertion assertionEvidence pack
  let scale ← sameScale candidate assertion
  let payload := vectorPayload candidate evidence assertionId assertionEvidence pack scale results
  let vectorId ← (hash P payload).mapError .base
  return ⟨assertionId, ⟨payload, vectorId⟩, results⟩

variable (results : Dict PyStr Outcome)

/-- Every result is `PASS`. -/
def Passes : Prop := ∀ p ∈ results, p.2 = .pass

instance : DecidablePred Passes := fun _ => List.decidableBAll _ _

/-- Some result is `FAIL`. -/
def Fails : Prop := .fail ∈ results.map Prod.snd

instance : DecidablePred Fails := fun _ => inferInstanceAs (Decidable (_ ∈ _))

/-- Some result is not evaluable, and none is `FAIL`. -/
def Unresolved : Prop :=
  .notEvaluable ∈ results.map Prod.snd ∧ .fail ∉ results.map Prod.snd

instance : DecidablePred Unresolved := fun _ => inferInstanceAs (Decidable (_ ∧ _))

/-- The branches of the loop. -/
def Tally.add (state : Tally) (row : PairRow) : Tally :=
  let vectors := state.evidenceVectors ++ [row.vector]
  if Passes row.results then
    { state with evidenceVectors := vectors, eligible := state.eligible ++ [row.assertionId] }
  else if Unresolved row.results then
    let excluded := state.excluded ++ [⟨row.assertionId, [py "C2P_MATCH_NOT_EVALUABLE"]⟩]
    { state with evidenceVectors := vectors, excluded, unresolvedPotentialMatch := true }
  else
    let failed := sortedBy id ((row.results.filter fun p => p.2 = .fail).map Prod.fst)
    let codes := failed.map fun key => py "C2P_PREDICATE_FAIL:" ++ key
    let excluded := state.excluded ++ [⟨row.assertionId, codes⟩]
    { state with evidenceVectors := vectors, excluded }

/-- `terminal_decision`. -/
inductive Terminal where
  | new
  | update
  | ambiguous
  | notEvaluable
  deriving DecidableEq, Repr

/-- The text of a terminal decision. -/
def Terminal.text : Terminal → PyStr
  | .new => py "NEW"
  | .update => py "UPDATE"
  | .ambiguous => py "AMBIGUOUS"
  | .notEvaluable => py "NOT_EVALUABLE"

/-- The terminal decision of what the loop collected. -/
def Tally.terminal (state : Tally) : Terminal :=
  if 1 < state.eligible.length then .ambiguous
  else if state.unresolvedPotentialMatch = true then .notEvaluable
  else if state.eligible.length = 1 then .update
  else .new

/-- `AdjudicationResult`: the decision with its id, the evidence vectors and the proof envelope. -/
structure AdjudicationResult where
  terminal : Terminal
  retrieved : List PyStr
  eligible : List PyStr
  excluded : List Exclusion
  decision : PyVal
  decisionId : PyStr
  evidenceVectors : List EvidenceVector
  predicatesPerPair : Nat
  pairAdjudications : Nat

/-- The payload of a decision. -/
def decisionPayload (pack : ObjectPack) (queryId : PyStr)
    (retrieved : List PyStr) (state : Tally) : PyVal :=
  .ofRecord
    [(py "schema", .str (py "c2p-match-decision/v0.2")),
      (py "object_pack_id", .str pack.objectPackId),
      (py "retrieval_query_id", .str queryId),
      (py "candidate_id", .str candidate.candidateId),
      (py "retrieved_candidate_assertions", .ofStrs retrieved),
      (py "eligible_assertions", .ofStrs (sortedBy id state.eligible)),
      (py "evidence_vector_ids",
        .ofStrs (sortedBy id (state.evidenceVectors.map EvidenceVector.evidenceVectorId))),
      (py "predicate_results", .ofRecord
        [(py "reference_envelope", .str (py "PASS")),
          (py "all_potential_matches_evaluable",
            .str (if state.unresolvedPotentialMatch = true then py "FAIL" else py "PASS"))]),
      (py "excluded_assertions", .list (state.excluded.map fun item => .ofRecord
        [(py "assertion_id", .str item.assertionId),
          (py "reason_codes", .ofStrs item.reasonCodes)])),
      (py "terminal_decision", .str state.terminal.text),
      (py "first_valid_time", .str candidate.firstValidTime),
      (py "evaluation_cutoff", .str candidate.evaluationCutoff)]

/-- One pass of the loop. -/
def adjudicateStep
    (evidenceById : Dict PyStr MechanicalEvidence) (pack : ObjectPack) (state : Tally)
    (assertion : ObjectAssertion) : Except AdjudicationError Tally := do
  let row ← pairRow P candidate evidence evidenceById pack assertion
  return state.add row

/-- The part of `adjudicate_candidate` after retrieval. -/
def adjudicateRetrieved
    (evidenceById : Dict PyStr MechanicalEvidence) (pack : ObjectPack) (alreadyUsed : Int)
    (queryId : PyStr) (retrieved : List ObjectAssertion) :
    Except AdjudicationError AdjudicationResult := do
  let predicateCount := pack.identityPredicates.length
  let pairCost := retrieved.length * predicateCount
  check (alreadyUsed + pairCost ≤ 4194304)
    (.adjudication (py "C2P_REFERENCE_PROOF_ENVELOPE_PAIR_LIMIT"))
  let state ← retrieved.foldlM (adjudicateStep P candidate evidence evidenceById pack)
    ⟨[], [], [], false⟩
  let ids := retrieved.map ObjectAssertion.objectAssertionId
  let decision := decisionPayload candidate pack queryId ids state
  let decisionId ← (hash P decision).mapError .base
  return ⟨state.terminal, ids, sortedBy id state.eligible, state.excluded, decision, decisionId,
    state.evidenceVectors, predicateCount, pairCost⟩

/-- `adjudicate_candidate`. -/
def adjudicateCandidate
    (assertions : List ObjectAssertion) (evidenceById : Dict PyStr MechanicalEvidence)
    (pack : ObjectPack) (alreadyUsed : Int) : Except AdjudicationError AdjudicationResult := do
  check (evidence.subjectId = candidate.candidateId)
    (.adjudication (py "C2P_CANDIDATE_EVIDENCE_BINDING_MISMATCH"))
  let found ← referenceRetrieve P candidate assertions pack
  adjudicateRetrieved P candidate evidence evidenceById pack alreadyUsed found.1 found.2

end OvcReplay.C2p
