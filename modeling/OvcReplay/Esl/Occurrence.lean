import OvcReplay.Esl.Canonical

/-! # Structural occurrences

The compiler and its validators, `compiler.py`, `validators.py` and `model.py`: an observation and
profiles of its four dimensions, with the dependencies that go with them, become one record. -/

namespace OvcReplay.Esl

open Python SharedSystems

/-- `OccurrenceCompileError` and `ESLValidationError` with their codes, `CanonicalizationError`, or
an exception of the language. -/
inductive OccurrenceError where
  | compile (code : PyStr)
  | validation (code : PyStr)
  | canonical (e : CanonicalizationError)
  | python (e : PyError)
  deriving DecidableEq, Repr

/-! ## `model.py` -/

inductive DependencyRole where
  | required
  | optional
  | conditionalRequired
  | stratifier
  | filter
  | displayOnly
  | provenanceOnly
  | forbidden
  deriving DecidableEq, Repr

/-- The text that a role is. -/
def DependencyRole.text : DependencyRole → PyStr
  | .required => py "REQUIRED"
  | .optional => py "OPTIONAL"
  | .conditionalRequired => py "CONDITIONAL_REQUIRED"
  | .stratifier => py "STRATIFIER"
  | .filter => py "FILTER"
  | .displayOnly => py "DISPLAY_ONLY"
  | .provenanceOnly => py "PROVENANCE_ONLY"
  | .forbidden => py "FORBIDDEN"

inductive EvidenceState where
  | available
  | missing
  | notEvaluable
  | notComparable
  | censored
  | ambiguous
  | conflict
  | quarantined
  | unresolved
  deriving DecidableEq, Repr

/-- The text that a state is. -/
def EvidenceState.text : EvidenceState → PyStr
  | .available => py "AVAILABLE"
  | .missing => py "MISSING"
  | .notEvaluable => py "NOT_EVALUABLE"
  | .notComparable => py "NOT_COMPARABLE"
  | .censored => py "CENSORED"
  | .ambiguous => py "AMBIGUOUS"
  | .conflict => py "CONFLICT"
  | .quarantined => py "QUARANTINED"
  | .unresolved => py "UNRESOLVED"

inductive StructuralDimension where
  | location
  | motion
  | organisation
  | interaction
  deriving DecidableEq, Repr

/-- `tuple(StructuralDimension)`. -/
def StructuralDimension.all : List StructuralDimension :=
  [.location, .motion, .organisation, .interaction]

/-- The text that a dimension is. -/
def StructuralDimension.text : StructuralDimension → PyStr
  | .location => py "LOCATION"
  | .motion => py "MOTION"
  | .organisation => py "ORGANISATION"
  | .interaction => py "INTERACTION"

structure OccurrenceAnchor where
  anchorKind : PyStr
  anchorId : PyStr
  instrument : PyStr
  side : PyStr
  scale : PyStr
  clock : PyStr

structure DependencyRef where
  refId : PyStr
  owner : PyStr
  objectType : PyStr
  role : DependencyRole
  evidenceState : EvidenceState
  firstValidTime : Option PyStr
  generationId : PyStr
  comparabilityDomainId : Option PyStr
  identityDefining : Bool
  deriving DecidableEq

structure StructuralFacet where
  dimension : StructuralDimension
  evidenceState : EvidenceState
  sourceRefIds : List PyStr
  value : Option PyVal
  reasonCodes : List PyStr

structure OccurrencePack where
  occurrencePackId : PyStr
  anchorKind : PyStr
  requiredDimensions : List StructuralDimension
  requiredSourceTypes : List PyStr
  comparabilityDomainId : Option PyStr

structure EvidenceFrontier where
  evaluationCutoff : PyStr
  requiredRefIds : List PyStr
  optionalRefIds : List PyStr
  missingRefIds : List PyStr
  sourceGenerationIds : List PyStr
  latestRequiredFvt : Option PyStr
  dependencyRoles : Dict PyStr DependencyRole
  comparabilityDomainId : Option PyStr

structure StructuralOccurrenceRecord where
  occurrenceRecordId : Option PyStr
  occurrencePackId : PyStr
  anchor : OccurrenceAnchor
  evaluationCutoff : PyStr
  firstValidTime : PyStr
  effectiveTime : PyStr
  facets : List StructuralFacet
  dependencyRefs : List DependencyRef
  evidenceFrontier : EvidenceFrontier
  sourceGenerationIds : List PyStr
  comparabilityDomainId : Option PyStr
  authorityState : PyStr
  extensions : List (PyStr × PyVal)

/-! ## `asdict` -/

/-- A text or `None`. -/
def optional : Option PyStr → PyVal
  | some s => .str s
  | none => .none

/-- A tuple of texts. -/
def texts (xs : List PyStr) : PyVal := .tuple (xs.map .str)

/-- A dictionary with texts as keys. -/
def object (items : List (PyStr × PyVal)) : PyVal :=
  .dict (items.map fun p => (.str p.1, p.2))

def OccurrenceAnchor.asdict (a : OccurrenceAnchor) : PyVal := object
  [(py "anchor_kind", .str a.anchorKind), (py "anchor_id", .str a.anchorId),
    (py "instrument", .str a.instrument), (py "side", .str a.side), (py "scale", .str a.scale),
    (py "clock", .str a.clock)]

def DependencyRef.asdict (r : DependencyRef) : PyVal := object
  [(py "ref_id", .str r.refId), (py "owner", .str r.owner), (py "object_type", .str r.objectType),
    (py "role", .str r.role.text), (py "evidence_state", .str r.evidenceState.text),
    (py "first_valid_time", optional r.firstValidTime), (py "generation_id", .str r.generationId),
    (py "comparability_domain_id", optional r.comparabilityDomainId),
    (py "identity_defining", .bool r.identityDefining)]

def StructuralFacet.asdict (f : StructuralFacet) : PyVal := object
  [(py "dimension", .str f.dimension.text), (py "evidence_state", .str f.evidenceState.text),
    (py "source_ref_ids", texts f.sourceRefIds), (py "value", f.value.getD .none),
    (py "reason_codes", texts f.reasonCodes)]

/-- `asdict(frontier)`, as the items of the dictionary. -/
def EvidenceFrontier.items (f : EvidenceFrontier) : List (PyStr × PyVal) :=
  [(py "evaluation_cutoff", .str f.evaluationCutoff),
    (py "required_ref_ids", texts f.requiredRefIds),
    (py "optional_ref_ids", texts f.optionalRefIds),
    (py "missing_ref_ids", texts f.missingRefIds),
    (py "source_generation_ids", texts f.sourceGenerationIds),
    (py "latest_required_fvt", optional f.latestRequiredFvt),
    (py "dependency_roles", object (f.dependencyRoles.map fun p => (p.1, .str p.2.text))),
    (py "comparability_domain_id", optional f.comparabilityDomainId)]

/-- `asdict(record)`, as the items of the dictionary. -/
def StructuralOccurrenceRecord.items (r : StructuralOccurrenceRecord) : List (PyStr × PyVal) :=
  [(py "occurrence_record_id", optional r.occurrenceRecordId),
    (py "occurrence_pack_id", .str r.occurrencePackId), (py "anchor", r.anchor.asdict),
    (py "evaluation_cutoff", .str r.evaluationCutoff),
    (py "first_valid_time", .str r.firstValidTime), (py "effective_time", .str r.effectiveTime),
    (py "facets", .tuple (r.facets.map StructuralFacet.asdict)),
    (py "dependency_refs", .tuple (r.dependencyRefs.map DependencyRef.asdict)),
    (py "evidence_frontier", object r.evidenceFrontier.items),
    (py "source_generation_ids", texts r.sourceGenerationIds),
    (py "comparability_domain_id", optional r.comparabilityDomainId),
    (py "authority_state", .str r.authorityState), (py "extensions", object r.extensions)]

section Identity

variable (P : Platform) (L : Language)

/-- `sha256_canonical(identity_projection(payload, excluded_top_level_fields=...))`. -/
def projectedHash (excluded : List PyStr) (payload : List (PyStr × PyVal)) :
    Except OccurrenceError PyStr := do
  let bytes ← (canonicalJsonV1Bytes L (object (payload.filter fun p => p.1 ∉ excluded))).mapError
    .canonical
  return (P.sha256 bytes).text

/-- `occurrence_record_id`. -/
def occurrenceRecordId (payload : List (PyStr × PyVal)) : Except OccurrenceError PyStr := do
  let hash ← projectedHash P L [py "occurrence_record_id", py "logical_hash"] payload
  return py "so1:" ++ hash

/-- `evidence_frontier_logical_hash`. -/
def evidenceFrontierLogicalHash (payload : List (PyStr × PyVal)) : Except OccurrenceError PyStr :=
  projectedHash P L [py "evidence_frontier_id", py "logical_hash"] payload

end Identity

/-! ## `validators.py` -/

/-- `_OWNER_RANK`. -/
def ownerRank : Dict PyStr Nat :=
  [(py "OPT-A", 10), (py "C1", 20), (py "C2", 30), (py "C2P", 40), (py "C2E", 40),
    (py "OCCURRENCE_CONTEXT", 45), (py "ESL", 50), (py "SRI", 60), (py "SOI", 70), (py "CEI", 75),
    (py "C2.5", 80), (py "C3", 90), (py "RESEARCH_OPERATIONS", 100)]

/-- `_ALLOWED_OCCURRENCE_OWNERS`. -/
def allowedOccurrenceOwners : List PyStr :=
  [py "OPT-A", py "C1", py "C2", py "C2P", py "C2E", py "OCCURRENCE_CONTEXT", py "ESL"]

section Validators

variable (P : Platform)

/-- `parse_utc` of a text: its instant. -/
def parseUtc (value field : PyStr) : Except OccurrenceError Int :=
  if value.getLast? = some (.ofChar 'Z') then
    match P.fromIsoFormat (value.dropLast ++ py "+00:00") with
    | none => .error (.validation (py "ESL_TIME_INVALID:" ++ field))
    | some d => do
      check (d.utcOffset.isSome = true) (.validation (py "ESL_TIME_NOT_UTC_Z:" ++ field))
      return d.instant
  else .error (.validation (py "ESL_TIME_NOT_UTC_Z:" ++ field))

/-- The field of the time of a dependency. -/
def fvtField (refId : PyStr) : PyStr := py "dependency:" ++ refId ++ py ":first_valid_time"

variable (ref : DependencyRef)

/-- `validate_owner`, for the consumer `ESL`. -/
def validateOwner : Except OccurrenceError Unit :=
  match Dict.get? ownerRank ref.owner with
  | none => .error (.validation (py "ESL_OWNER_UNKNOWN:" ++ ref.owner))
  | some rank => do
    check (ref.owner ∈ allowedOccurrenceOwners)
      (.validation (py "ESL_REVERSE_EDGE_FORBIDDEN:" ++ ref.owner))
    check (rank ≤ 50) (.validation (py "ESL_REVERSE_EDGE_FORBIDDEN:" ++ ref.owner))

/-- One round of `validate_dependencies`, of an occurrence: no conditional requirement is active. -/
def validateDependency : Except OccurrenceError Unit := do
  validateOwner ref
  check (ref.role ≠ .forbidden)
    (.validation (py "ESL_FORBIDDEN_DEPENDENCY_PRESENT:" ++ ref.refId))
  check (¬ (ref.role = .required ∧ ref.evidenceState ≠ .available))
    (.validation (py "ESL_REQUIRED_DEPENDENCY_UNAVAILABLE:" ++ ref.refId))
  check (¬ (ref.evidenceState = .available ∧ ref.firstValidTime.getD [] = []))
    (.validation (py "ESL_AVAILABLE_DEPENDENCY_FVT_MISSING:" ++ ref.refId))
  match ref.firstValidTime with
  | none => return ()
  | some fvt => do
    let _ ← parseUtc P fvt (fvtField ref.refId)
    return ()

/-- `validate_dependencies`, after the references that were seen. -/
def validateDependencies : (seen : List PyStr) → List DependencyRef → Except OccurrenceError Unit
  | _, [] => .ok ()
  | seen, ref :: refs => do
    check (ref.refId ∉ seen) (.validation (py "ESL_DUPLICATE_DEPENDENCY_REF:" ++ ref.refId))
    validateDependency P ref
    validateDependencies (seen ++ [ref.refId]) refs

/-- `max(times)`. -/
def latest? : List Int → Option Int
  | [] => none
  | t :: ts => some (ts.foldl max t)

variable (refs : List DependencyRef)

/-- The times of the references that are picked, with the field of each. -/
def parseTimes : Except OccurrenceError (List Int) :=
  (refs.filterMap fun ref => ref.firstValidTime.map fun fvt => (ref, fvt)).mapM fun p =>
    parseUtc P p.2 (fvtField p.1.refId)

/-- `tuple(sorted({ref.generation_id for ref in refs}))`. -/
def generationsOf : List PyStr :=
  sortedSet (refs.map DependencyRef.generationId)

/-- `{ref.ref_id: ref for ref in refs}[ref_id]`. -/
def byId (refId : PyStr) : Option DependencyRef :=
  Dict.get? (Dict.ofItems (refs.map fun ref => (ref.refId, ref))) refId

/-- `validate_frontier`. -/
def validateFrontier (frontier : EvidenceFrontier) (refs : List DependencyRef) :
    Except OccurrenceError Unit := do
  let ids := refs.map DependencyRef.refId
  check (∀ id ∈ frontier.requiredRefIds ++ frontier.optionalRefIds ++ frontier.missingRefIds,
    id ∈ ids) (.validation (py "ESL_FRONTIER_UNKNOWN_REF"))
  let missing := (refs.filter fun ref => ref.evidenceState ≠ .available).map DependencyRef.refId
  check ((∀ id ∈ frontier.missingRefIds, id ∈ missing) ∧ ∀ id ∈ missing,
    id ∈ frontier.missingRefIds) (.validation (py "ESL_FRONTIER_MISSING_SET_MISMATCH"))
  check (∀ id ∈ frontier.requiredRefIds, id ∉ frontier.optionalRefIds)
    (.validation (py "ESL_FRONTIER_ROLE_OVERLAP"))
  check (∀ id ∈ frontier.requiredRefIds, id ∉ frontier.missingRefIds)
    (.validation (py "ESL_REQUIRED_REF_LISTED_MISSING"))
  frontier.dependencyRoles.forM fun p =>
    match byId refs p.1 with
    | none => .error (.validation (py "ESL_FRONTIER_UNKNOWN_ROLE_REF:" ++ p.1))
    | some ref => check (p.2 = ref.role) (.validation (py "ESL_FRONTIER_ROLE_MISMATCH:" ++ p.1))
  let cutoff ← parseUtc P frontier.evaluationCutoff (py "frontier:evaluation_cutoff")
  let times ← parseTimes P (frontier.requiredRefIds.filterMap (byId refs))
  match latest? times with
  | some latest =>
    match frontier.latestRequiredFvt with
    | none => .error (.validation (py "ESL_FRONTIER_LATEST_REQUIRED_FVT_MISSING"))
    | some fvt => do
      let declared ← parseUtc P fvt (py "frontier:latest_required_fvt")
      check (declared = latest)
        (.validation (py "ESL_FRONTIER_LATEST_REQUIRED_FVT_MISMATCH"))
      check (latest ≤ cutoff) (.validation (py "ESL_REQUIRED_FVT_AFTER_CUTOFF"))
  | none =>
    check (frontier.latestRequiredFvt = none)
      (.validation (py "ESL_FRONTIER_LATEST_REQUIRED_FVT_UNEXPECTED"))
  check (sortedBy id frontier.sourceGenerationIds = generationsOf refs)
    (.validation (py "ESL_FRONTIER_GENERATION_SET_MISMATCH"))

variable (record : StructuralOccurrenceRecord)

/-- `validate_generation`. -/
def validateGeneration : Except OccurrenceError Unit := do
  let declared := sortedBy id record.sourceGenerationIds
  check (declared = generationsOf record.dependencyRefs)
    (.validation (py "ESL_OCCURRENCE_GENERATION_SET_MISMATCH"))
  check (sortedBy id record.evidenceFrontier.sourceGenerationIds = declared)
    (.validation (py "ESL_FRONTIER_OCCURRENCE_GENERATION_MISMATCH"))

/-- The references that the time of a record is held against. -/
def isBinding : Bool :=
  ref.identityDefining && (ref.role == .required || ref.role == .conditionalRequired) &&
    ref.evidenceState == .available

/-- `validate_chronology`. -/
def validateChronology : Except OccurrenceError Unit := do
  let effective ← parseUtc P record.effectiveTime (py "effective_time")
  let fvt ← parseUtc P record.firstValidTime (py "first_valid_time")
  let cutoff ← parseUtc P record.evaluationCutoff (py "evaluation_cutoff")
  let frontierCutoff ← parseUtc P record.evidenceFrontier.evaluationCutoff
    (py "frontier:evaluation_cutoff")
  check (frontierCutoff = cutoff) (.validation (py "ESL_FRONTIER_CUTOFF_MISMATCH"))
  check (effective ≤ fvt) (.validation (py "ESL_FVT_BEFORE_EFFECTIVE_TIME"))
  check (fvt ≤ cutoff) (.validation (py "ESL_FVT_AFTER_EVALUATION_CUTOFF"))
  let times ← parseTimes P (record.dependencyRefs.filter isBinding)
  check (∀ t ∈ times, t ≤ fvt) (.validation (py "ESL_FVT_BACKDATED"))

/-- `validate_comparability`. -/
def validateComparability : Except OccurrenceError Unit :=
  record.dependencyRefs.forM fun ref => do
    if ref.role = .displayOnly ∨ ref.role = .provenanceOnly then return ()
    else if ref.evidenceState = .notComparable then
      check (ref.role ≠ .required)
        (.validation (py "ESL_REQUIRED_DEPENDENCY_NOT_COMPARABLE:" ++ ref.refId))
    else
      check (¬ (record.comparabilityDomainId.getD [] ≠ [] ∧
          ref.comparabilityDomainId.getD [] ≠ [] ∧
          ref.comparabilityDomainId ≠ record.comparabilityDomainId))
        (.validation (py "ESL_COMPARABILITY_DOMAIN_MISMATCH:" ++ ref.refId))

/-- The loop of `validate_facets`, after the dimensions that were seen. -/
def validateEachFacet :
    (seen : List StructuralDimension) → List StructuralFacet → Except OccurrenceError Unit
  | _, [] => .ok ()
  | seen, facet :: facets => do
    check (facet.dimension ∉ seen)
      (.validation (py "ESL_DUPLICATE_FACET:" ++ facet.dimension.text))
    check (¬ (facet.evidenceState = .available ∧ facet.value.isNone = true))
      (.validation (py "ESL_AVAILABLE_FACET_VALUE_MISSING:" ++ facet.dimension.text))
    check (¬ (facet.evidenceState ≠ .available ∧ facet.value.isSome = true))
      (.validation (py "ESL_NONAVAILABLE_FACET_VALUE_PRESENT:" ++ facet.dimension.text))
    validateEachFacet (seen ++ [facet.dimension]) facets

/-- `validate_facets`. -/
def validateFacets (pack : OccurrencePack) :
    Except OccurrenceError Unit := do
  validateEachFacet [] record.facets
  pack.requiredDimensions.forM fun dimension =>
    check (dimension ∈ record.facets.map StructuralFacet.dimension)
      (.validation (py "ESL_REQUIRED_FACET_ABSENT:" ++ dimension.text))

/-- `",".join(texts)`. -/
def commaJoin : List PyStr → PyStr
  | [] => []
  | [s] => s
  | s :: rest => s ++ py "," ++ commaJoin rest

/-- `validate_occurrence`. -/
def validateOccurrence (pack : OccurrencePack) :
    Except OccurrenceError Unit := do
  check (record.occurrencePackId = pack.occurrencePackId)
    (.validation (py "ESL_OCCURRENCE_PACK_MISMATCH"))
  check (record.anchor.anchorKind = pack.anchorKind)
    (.validation (py "ESL_ANCHOR_KIND_MISMATCH"))
  check (¬ (pack.comparabilityDomainId.getD [] ≠ [] ∧
      record.comparabilityDomainId ≠ pack.comparabilityDomainId))
    (.validation (py "ESL_PACK_COMPARABILITY_DOMAIN_MISMATCH"))
  validateDependencies P [] record.dependencyRefs
  let present := (record.dependencyRefs.filter fun ref =>
    ref.role = .required ∧ ref.evidenceState = .available).map DependencyRef.objectType
  let missing := sortedSet (pack.requiredSourceTypes.filter fun t => t ∉ present)
  check (missing = []) (.validation (py "ESL_REQUIRED_SOURCE_TYPE_MISSING:" ++ commaJoin missing))
  validateFrontier P record.evidenceFrontier record.dependencyRefs
  validateGeneration record
  validateChronology P record
  validateComparability record
  validateFacets record pack
  check (record.authorityState = py "INACTIVE_CONFORMANCE_ONLY")
    (.validation (py "ESL_AUTHORITY_STATE_NOT_INACTIVE"))

end Validators

end OvcReplay.Esl
