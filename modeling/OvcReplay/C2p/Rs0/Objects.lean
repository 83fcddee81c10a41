import OvcReplay.C2p.Rs0.Semantics

/-! # Objects of the RS0 runtime

The records of `rs0_empirical_runtime.py`: candidates, tracklets, object assertions, evidence vectors
and match decisions. An id is the hash of an identity payload, which is a function of fields that
never change. -/

namespace OvcReplay.C2p.Rs0

open Python

variable (P : Platform)

/-- What the runtime reads of an ObjectPack candidate; both ids are texts in every generation. -/
structure CandidateSpec where
  candidateId : PyStr
  semanticCandidateId : PyStr
  activationEligible : PyVal

/-- `_scope_key`. -/
def scopeKey (hardScope : HardScope) : Except Error PyStr :=
  canonicalHash P (.ofRecord [(py "schema", .str (py "ovc-c2p2-rs0-hard-scope-key/v1")),
    (py "hard_scope", hardScope.toVal)])

/-! ## Candidates -/

/-- An empirical candidate. -/
structure Candidate where
  objectPackCandidateId : PyStr
  semanticCandidateId : PyStr
  sourceRecordId : PyStr
  sourceMaterialHash : PyStr
  structuralRoleId : PyStr
  geometryKindId : PyStr
  hardScope : HardScope
  firstValidTime : PyStr
  evaluationCutoff : PyStr
  candidateId : PyStr

namespace Candidate

/-- The payload the id of a candidate is the hash of. -/
def payload (c : Candidate) : Record :=
  [(py "schema", .str (py "ovc-c2p2-rs0-empirical-candidate/v1")),
    (py "object_pack_candidate_id", .str c.objectPackCandidateId),
    (py "semantic_candidate_id", .str c.semanticCandidateId),
    (py "source_record_id", .str c.sourceRecordId),
    (py "source_material_hash", .str c.sourceMaterialHash),
    (py "structural_role_id", .str c.structuralRoleId),
    (py "geometry_kind_id", .str c.geometryKindId), (py "hard_scope", c.hardScope.toVal),
    (py "first_valid_time", .str c.firstValidTime),
    (py "evaluation_cutoff", .str c.evaluationCutoff)]

/-- The dictionary of a candidate. -/
def toVal (c : Candidate) : PyVal :=
  .ofRecord (c.payload ++ [(py "candidate_id", .str c.candidateId)])

end Candidate

/-- `_candidate_record`. -/
def candidateRecord (spec : CandidateSpec) (material : Material) : Except Error Candidate := do
  let candidate : Candidate :=
    { objectPackCandidateId := spec.candidateId, semanticCandidateId := spec.semanticCandidateId
      sourceRecordId := material.sourceRecordId
      sourceMaterialHash := material.candidateMaterialHash
      structuralRoleId := material.structuralRoleId, geometryKindId := material.geometryKindId
      hardScope := material.hardScope, firstValidTime := material.firstValidTime
      evaluationCutoff := material.evaluationCutoff, candidateId := [] }
  let candidateId ← canonicalHash P (.ofRecord candidate.payload)
  return { candidate with candidateId }

/-! ## Tracklets -/

/-- The state of a tracklet. -/
inductive TrackletState where
  | opened
  | confirmed
  | censored
  | ambiguous
  deriving DecidableEq, Repr

/-- The text of a state. -/
def TrackletState.text : TrackletState → PyStr
  | .opened => py "OPEN"
  | .confirmed => py "CONFIRMED"
  | .censored => py "CENSORED"
  | .ambiguous => py "AMBIGUOUS"

/-- An empirical tracklet. -/
structure Tracklet where
  trackletId : PyStr
  objectPackCandidateId : PyStr
  structuralRoleId : PyStr
  geometryKindId : PyStr
  hardScope : HardScope
  openingCandidateId : PyStr
  memberCandidateIds : List PyStr
  memberSourceMaterialHashes : List PyStr
  latestMaterial : Material
  state : TrackletState
  firstValidTime : PyStr
  evaluationCutoff : PyStr
  reasonCodes : List PyStr

namespace Tracklet

/-- The payload the id of a tracklet is the hash of. -/
def identity (t : Tracklet) : Record :=
  [(py "schema", .str (py "ovc-c2p2-rs0-empirical-tracklet-identity/v1")),
    (py "object_pack_candidate_id", .str t.objectPackCandidateId),
    (py "opening_candidate_id", .str t.openingCandidateId), (py "hard_scope", t.hardScope.toVal)]

/-- The dictionary of a tracklet. -/
def toVal (t : Tracklet) : PyVal :=
  .ofRecord [(py "schema", .str (py "ovc-c2p2-rs0-empirical-tracklet/v1")),
    (py "tracklet_id", .str t.trackletId),
    (py "object_pack_candidate_id", .str t.objectPackCandidateId),
    (py "structural_role_id", .str t.structuralRoleId),
    (py "geometry_kind_id", .str t.geometryKindId), (py "hard_scope", t.hardScope.toVal),
    (py "opening_candidate_id", .str t.openingCandidateId),
    (py "member_candidate_ids", .ofStrs t.memberCandidateIds),
    (py "member_source_material_hashes", .ofStrs t.memberSourceMaterialHashes),
    (py "latest_material", t.latestMaterial.toVal), (py "state", .str t.state.text),
    (py "first_valid_time", .str t.firstValidTime),
    (py "evaluation_cutoff", .str t.evaluationCutoff),
    (py "reason_codes", .ofStrs t.reasonCodes)]

/-- The tracklet once it is closed for a reason. -/
def close (t : Tracklet) (state : TrackletState) (reason : PyStr) : Tracklet :=
  { t with state := state, reasonCodes := [reason] }

end Tracklet

/-- `CONFIRMATION_COUNT`. -/
def confirmationCount : Nat := 3

/-- `_open_tracklet`. -/
def openTracklet (candidate : Candidate) (material : Material) : Except Error Tracklet := do
  let tracklet : Tracklet :=
    { trackletId := [], objectPackCandidateId := candidate.objectPackCandidateId
      structuralRoleId := candidate.structuralRoleId, geometryKindId := candidate.geometryKindId
      hardScope := candidate.hardScope, openingCandidateId := candidate.candidateId
      memberCandidateIds := [candidate.candidateId]
      memberSourceMaterialHashes := [candidate.sourceMaterialHash]
      latestMaterial := material, state := .opened, firstValidTime := candidate.firstValidTime
      evaluationCutoff := candidate.evaluationCutoff, reasonCodes := [] }
  let trackletId ← canonicalHash P (.ofRecord tracklet.identity)
  return { tracklet with trackletId }

/-- `_append_tracklet`. -/
def appendTracklet (tracklet : Tracklet) (candidate : Candidate) (material : Material) :
    Except Error Tracklet := do
  check (tracklet.state = .opened) (.runtime (py "RS0_RUNTIME_TRACKLET_NOT_OPEN"))
  check (candidate.candidateId ∉ tracklet.memberCandidateIds)
    (.runtime (py "RS0_RUNTIME_DUPLICATE_CANDIDATE"))
  let members := tracklet.memberCandidateIds ++ [candidate.candidateId]
  return { tracklet with
    memberCandidateIds := members
    memberSourceMaterialHashes :=
      tracklet.memberSourceMaterialHashes ++ [candidate.sourceMaterialHash]
    latestMaterial := material
    evaluationCutoff := candidate.evaluationCutoff
    state := if confirmationCount ≤ members.length then .confirmed else .opened }

/-! ## Object assertions -/

/-- An object assertion. -/
structure Assertion where
  objectAssertionId : PyStr
  objectPackCandidateId : PyStr
  genesisTrackletId : PyStr
  structuralRoleId : PyStr
  geometryKindId : PyStr
  hardScope : HardScope
  immutableGenesisCandidateIds : List PyStr
  latestCandidateId : PyStr
  latestMaterial : Material
  observationCount : Nat
  firstValidIdentityTime : PyStr
  evaluationCutoff : PyStr
  lifecycleState : PyStr
  activationState : PyStr

namespace Assertion

/-- The payload the id of an assertion is the hash of. -/
def identity (a : Assertion) : Record :=
  [(py "schema", .str (py "ovc-c2p2-rs0-empirical-assertion-identity/v1")),
    (py "object_pack_candidate_id", .str a.objectPackCandidateId),
    (py "tracklet_id", .str a.genesisTrackletId), (py "hard_scope", a.hardScope.toVal),
    (py "immutable_genesis_candidate_ids", .ofStrs a.immutableGenesisCandidateIds),
    (py "first_valid_identity_time", .str a.firstValidIdentityTime)]

/-- The dictionary of an assertion. -/
def toVal (a : Assertion) : PyVal :=
  .ofRecord [(py "schema", .str (py "ovc-c2p2-rs0-empirical-object-assertion/v1")),
    (py "object_assertion_id", .str a.objectAssertionId),
    (py "object_pack_candidate_id", .str a.objectPackCandidateId),
    (py "genesis_tracklet_id", .str a.genesisTrackletId),
    (py "structural_role_id", .str a.structuralRoleId),
    (py "geometry_kind_id", .str a.geometryKindId), (py "hard_scope", a.hardScope.toVal),
    (py "immutable_genesis_candidate_ids", .ofStrs a.immutableGenesisCandidateIds),
    (py "latest_candidate_id", .str a.latestCandidateId),
    (py "latest_material", a.latestMaterial.toVal),
    (py "observation_count", .int a.observationCount),
    (py "first_valid_identity_time", .str a.firstValidIdentityTime),
    (py "evaluation_cutoff", .str a.evaluationCutoff),
    (py "lifecycle_state", .str a.lifecycleState),
    (py "activation_state", .str a.activationState)]

end Assertion

/-- `_create_assertion`. -/
def createAssertion (tracklet : Tracklet) : Except Error Assertion := do
  let assertion : Assertion :=
    { objectAssertionId := [], objectPackCandidateId := tracklet.objectPackCandidateId
      genesisTrackletId := tracklet.trackletId, structuralRoleId := tracklet.structuralRoleId
      geometryKindId := tracklet.geometryKindId, hardScope := tracklet.hardScope
      immutableGenesisCandidateIds := tracklet.memberCandidateIds
      latestCandidateId := tracklet.memberCandidateIds.getLastD []
      latestMaterial := tracklet.latestMaterial
      observationCount := tracklet.memberCandidateIds.length
      firstValidIdentityTime := tracklet.firstValidTime
      evaluationCutoff := tracklet.evaluationCutoff
      lifecycleState := py "ACTIVE_RESEARCH_SIDECAR", activationState := py "NONE" }
  let objectAssertionId ← canonicalHash P (.ofRecord assertion.identity)
  return { assertion with objectAssertionId }

/-- `_update_assertion`. -/
def updateAssertion (assertion : Assertion) (candidate : Candidate) (material : Material) :
    Assertion :=
  { assertion with
    latestCandidateId := candidate.candidateId
    latestMaterial := material
    observationCount := assertion.observationCount + 1
    evaluationCutoff := candidate.evaluationCutoff }

/-! ## Evidence and decisions -/

/-- What a candidate is compared with. -/
inductive SubjectKind where
  | objectAssertion
  | tracklet
  deriving DecidableEq, Repr

/-- The text of a kind. -/
def SubjectKind.text : SubjectKind → PyStr
  | .objectAssertion => py "OBJECT_ASSERTION"
  | .tracklet => py "TRACKLET"

/-- An evidence vector. -/
structure EvidenceVector where
  objectPackCandidateId : PyStr
  candidateId : PyStr
  subjectKind : SubjectKind
  subjectId : PyStr
  pair : PairEvaluation
  evidenceVectorId : PyStr

namespace EvidenceVector

/-- The payload the id of a vector is the hash of. -/
def payload (v : EvidenceVector) : Record :=
  [(py "schema", .str (py "ovc-c2p2-rs0-empirical-evidence-vector/v1")),
    (py "object_pack_candidate_id", .str v.objectPackCandidateId),
    (py "candidate_id", .str v.candidateId), (py "subject_kind", .str v.subjectKind.text),
    (py "subject_id", .str v.subjectId),
    (py "predicate_results",
      .ofRecord (v.pair.predicateResults.map fun p => (p.1, .bool p.2))),
    (py "geometry_residuals",
      .ofRecord (v.pair.geometryResiduals.map fun p => (p.1, .str p.2))),
    (py "numeric_residual_policy", .str v.pair.numericResidualPolicy),
    (py "c2e_dependency_disposition", .str v.pair.c2eDependencyDisposition),
    (py "same_object_pair_supported", .bool v.pair.sameObjectPairSupported)]

/-- The dictionary of a vector. -/
def toVal (v : EvidenceVector) : PyVal :=
  .ofRecord (v.payload ++ [(py "evidence_vector_id", .str v.evidenceVectorId)])

end EvidenceVector

/-- `_evidence_vector`. -/
def evidenceVector (candidate : Candidate) (subjectKind : SubjectKind) (subjectId : PyStr)
    (pair : PairEvaluation) : Except Error EvidenceVector := do
  let vector : EvidenceVector :=
    { objectPackCandidateId := candidate.objectPackCandidateId
      candidateId := candidate.candidateId, subjectKind, subjectId, pair, evidenceVectorId := [] }
  let evidenceVectorId ← canonicalHash P (.ofRecord vector.payload)
  return { vector with evidenceVectorId }

/-- What is decided of a candidate. -/
inductive TerminalDecision where
  | ambiguous
  | update
  | genesis
  | trackletUpdate
  | newTracklet
  deriving DecidableEq, Repr

/-- The text of a decision. -/
def TerminalDecision.text : TerminalDecision → PyStr
  | .ambiguous => py "AMBIGUOUS"
  | .update => py "UPDATE"
  | .genesis => py "GENESIS"
  | .trackletUpdate => py "TRACKLET_UPDATE"
  | .newTracklet => py "NEW_TRACKLET"

/-- A match decision. -/
structure Decision where
  objectPackCandidateId : PyStr
  candidateId : PyStr
  eligibleAssertionIds : List PyStr
  eligibleTrackletIds : List PyStr
  evidenceVectorIds : List PyStr
  terminalDecision : TerminalDecision
  resultingSubjectId : Option PyStr
  firstValidTime : PyStr
  evaluationCutoff : PyStr
  decisionId : PyStr

namespace Decision

/-- The payload the id of a decision is the hash of. -/
def payload (d : Decision) : Record :=
  [(py "schema", .str (py "ovc-c2p2-rs0-empirical-match-decision/v1")),
    (py "object_pack_candidate_id", .str d.objectPackCandidateId),
    (py "candidate_id", .str d.candidateId),
    (py "eligible_assertion_ids", .ofStrs d.eligibleAssertionIds),
    (py "eligible_tracklet_ids", .ofStrs d.eligibleTrackletIds),
    (py "evidence_vector_ids", .ofStrs d.evidenceVectorIds),
    (py "terminal_decision", .str d.terminalDecision.text),
    (py "resulting_subject_id", .ofStr? d.resultingSubjectId),
    (py "first_valid_time", .str d.firstValidTime),
    (py "evaluation_cutoff", .str d.evaluationCutoff)]

/-- The dictionary of a decision. -/
def toVal (d : Decision) : PyVal :=
  .ofRecord (d.payload ++ [(py "decision_id", .str d.decisionId)])

/-- The decision updates this assertion. -/
def Updates (d : Decision) (assertionId : PyStr) : Prop :=
  d.terminalDecision = .update ∧ d.resultingSubjectId = some assertionId

instance (d : Decision) (assertionId : PyStr) : Decidable (d.Updates assertionId) :=
  inferInstanceAs (Decidable (_ ∧ _))

end Decision

/-- `_decision`. -/
def decision (candidate : Candidate) (terminalDecision : TerminalDecision)
    (eligibleAssertionIds eligibleTrackletIds : List PyStr) (vectors : List EvidenceVector)
    (resultingSubjectId : Option PyStr) : Except Error Decision := do
  let decision : Decision :=
    { objectPackCandidateId := candidate.objectPackCandidateId
      candidateId := candidate.candidateId
      eligibleAssertionIds := sortedBy id eligibleAssertionIds
      eligibleTrackletIds := sortedBy id eligibleTrackletIds
      evidenceVectorIds := sortedBy id (vectors.map (·.evidenceVectorId))
      terminalDecision, resultingSubjectId, firstValidTime := candidate.firstValidTime
      evaluationCutoff := candidate.evaluationCutoff, decisionId := [] }
  let decisionId ← canonicalHash P (.ofRecord decision.payload)
  return { decision with decisionId }

end OvcReplay.C2p.Rs0
