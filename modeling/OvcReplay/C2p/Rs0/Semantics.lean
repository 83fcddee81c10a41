import OvcReplay.Json.Dumps

/-! # RS0 empirical semantics of C2P v0.2

`rs0_empirical_semantics.py`: a source row becomes candidate material, and two materials are compared
by the identity predicates of a research candidate. -/

namespace OvcReplay.C2p.Rs0

open Python Json

/-- The exceptions of the RS0 modules, with their markers. -/
inductive Error where
  | python (e : PyError)
  | semantic (marker : PyStr)
  | runtime (marker : PyStr)
  deriving DecidableEq, Repr

variable (P : Platform)

/-- `_canonical_hash`, which is also the `_hash` of the runtime. -/
def canonicalHash (v : PyVal) : Except Error PyStr := do
  let tree ← (dumps P v).mapError .python
  let encoded ← (encodeUtf8 tree.render).mapError .python
  return (P.sha256 encoded).text

/-- `str(record.get(field, ""))`. -/
def textField (record : Record) (field : String) : Except Error PyStr :=
  (((record.get? (py field)).getD (.str [])).strOf P).mapError .python

/-! ## Decimals -/

/-- `_decimal`. -/
def decimal (v : PyVal) (field : PyStr) : Except Error PyDecimal :=
  let invalid := Error.semantic (py "RS0_NUMERIC_RESIDUAL_INPUT_INVALID:" ++ field)
  match v with
  | .none => .error invalid
  | .bool _ => .error invalid
  | v =>
    match v.strOf P with
    | .error e =>
      .error (if e = .valueError ∨ e = .unicodeEncodeError then invalid else .python e)
    | .ok s =>
      match P.decimalOf s with
      | some d => .ok d
      | none => .error invalid

/-- `_decimal_text`. -/
def decimalText (d : PyDecimal) : PyStr :=
  if d.isZero then py "0"
  else
    let text := d.normalize.formatF
    if py "." <:+: text then text else text ++ py ".0"

/-! ## Candidate material -/

/-- `FORBIDDEN_IDENTITY_FIELDS`. -/
def forbiddenIdentityFields : List String :=
  ["family", "family_label", "C3_semantics", "c3_semantics", "OPT_C", "opt_c", "OPT_D", "opt_d",
    "outcome", "outcomes", "future_information", "Validation", "validation", "probability", "risk",
    "exposure", "trade_signal", "trading", "execution", "agent_write"]

mutual

/-- `_require_no_forbidden_fields`. -/
def requireNoForbiddenFields : PyVal → Except Error Unit
  | .dict items => do
    let forbidden := sortedSet ((forbiddenIdentityFields.map py).filter fun field =>
      .str field ∈ Dict.keys items)
    check (forbidden = [])
      (.semantic (py "RS0_FORBIDDEN_IDENTITY_FIELD:" ++ (py ",").intercalate forbidden))
    requireNoForbiddenItems items
  | .list xs => requireNoForbiddenElements xs
  | _ => .ok ()

/-- The check for the elements of a list. -/
def requireNoForbiddenElements : List PyVal → Except Error Unit
  | [] => .ok ()
  | x :: xs => do
    requireNoForbiddenFields x
    requireNoForbiddenElements xs

/-- The check for the values of a dictionary. -/
def requireNoForbiddenItems : List (PyKey × PyVal) → Except Error Unit
  | [] => .ok ()
  | (_, v) :: items => do
    requireNoForbiddenFields v
    requireNoForbiddenItems items

end

/-- `hard_scope`: only objects of one scope are compared. -/
structure HardScope where
  instrument : PyStr
  side : PyStr
  clock : PyStr
  structuralRoleId : PyStr
  geometryKindId : PyStr
  deriving DecidableEq

/-- The dictionary of a scope. -/
def HardScope.toVal (scope : HardScope) : PyVal :=
  .ofRecord [(py "instrument", .str scope.instrument), (py "side", .str scope.side),
    (py "clock", .str scope.clock), (py "structural_role_id", .str scope.structuralRoleId),
    (py "geometry_kind_id", .str scope.geometryKindId)]

/-- Normalized candidate material. -/
structure Material where
  sourceRecordId : PyStr
  sourceRecordKind : PyStr
  firstValidTime : PyStr
  evaluationCutoff : PyStr
  hardScope : HardScope
  structuralRoleId : PyStr
  geometryKindId : PyStr
  geometrySignature : List (PyKey × PyVal)
  ownerGeometryClass : Record
  numericGeometryState : Record
  relationTopology : List PyStr
  candidateMaterialHash : PyStr

namespace Material

/-- What the hash of a material is taken of. -/
def payload (m : Material) : Record :=
  [(py "schema", .str (py "ovc-c2p2-rs0-empirical-candidate-material/v1")),
    (py "source_record_id", .str m.sourceRecordId),
    (py "source_record_kind", .str m.sourceRecordKind),
    (py "first_valid_time", .str m.firstValidTime),
    (py "evaluation_cutoff", .str m.evaluationCutoff), (py "hard_scope", m.hardScope.toVal),
    (py "structural_role_id", .str m.structuralRoleId),
    (py "geometry_kind_id", .str m.geometryKindId),
    (py "geometry_signature", .dict m.geometrySignature),
    (py "owner_geometry_class", .ofRecord m.ownerGeometryClass),
    (py "numeric_geometry_state", .ofRecord m.numericGeometryState),
    (py "relation_topology", .ofStrs m.relationTopology)]

/-- The dictionary of a material. -/
def toVal (m : Material) : PyVal :=
  .ofRecord (m.payload ++ [(py "candidate_material_hash", .str m.candidateMaterialHash)])

/-- The key of the runtime's stream order. -/
def orderKey (m : Material) : PyStr × PyStr := (m.firstValidTime, m.sourceRecordId)

end Material

/-- What is read of the geometry of one source kind. -/
structure KindContract where
  sourceKind : String
  required : List String
  incomplete : String
  structuralRoleId : String
  geometryKindId : String
  ownerFields : List String
  numericFields : List String

/-- `C2_LEVEL`. -/
def levelContract : KindContract where
  sourceKind := "C2_LEVEL"
  required := ["horizon_id", "level_type", "value", "origin", "structural_depth"]
  incomplete := "RS0_LEVEL_OWNER_FIELDS_INCOMPLETE"
  structuralRoleId := "LEVEL"
  geometryKindId := "POINT_REFERENCE"
  ownerFields := ["horizon_id", "level_type", "origin", "structural_depth"]
  numericFields := ["value"]

/-- `C2_CONTAINER`. -/
def containerContract : KindContract where
  sourceKind := "C2_CONTAINER"
  required := ["horizon_id", "kind", "lower_value", "upper_value", "centre", "width", "origin",
    "structural_depth"]
  incomplete := "RS0_CONTAINER_OWNER_FIELDS_INCOMPLETE"
  structuralRoleId := "RANGE"
  geometryKindId := "INTERVAL"
  ownerFields := ["horizon_id", "kind", "origin", "structural_depth"]
  numericFields := ["lower_value", "upper_value", "centre", "width"]

/-- `{field: geometry[field] for field in fields}`. -/
def pick (geometry : List (PyKey × PyVal)) (fields : List String) : Except Error Record :=
  fields.mapM fun field =>
    (((PyVal.dict geometry).subscript (py field)).mapError .python).map fun v => (py field, v)

/-- `normalize_candidate_source_row`. -/
def normalizeCandidateSourceRow (record : Record) : Except Error Material := do
  requireNoForbiddenFields (.ofRecord record)
  check (Dict.get? record (py "schema") = some (.str (py "ovc-c2p2-rs0-source-row/v1")) ∧
      Dict.get? record (py "source_role") = some (.str (py "C2_VNEXT")))
    (.semantic (py "RS0_BASE_CANDIDATE_REQUIRES_C2_VNEXT"))
  let sourceKind ← textField P record "source_record_kind"
  let contract ← match [levelContract, containerContract].find? fun contract =>
      sourceKind = py contract.sourceKind with
    | some contract => .ok contract
    | none => .error (.semantic (py "RS0_BASE_CANDIDATE_SOURCE_FORBIDDEN:" ++ sourceKind))
  let scopeInvalid := Error.semantic (py "RS0_BASE_CANDIDATE_SCOPE_INVALID")
  check (Dict.get? record (py "instrument") = some (.str (py "GBPUSD"))) scopeInvalid
  let side ← match (Dict.get? record (py "side")).getD .none with
    | .str side => if side ∈ [py "BID", py "ASK"] then .ok side else .error scopeInvalid
    | v => .error (if v.hashable then scopeInvalid else .python .typeError)
  check (Dict.get? record (py "clock") = some (.str (py "15M")))
    (.semantic (py "RS0_BASE_CANDIDATE_CLOCK_INVALID"))
  let firstValidTime ← textField P record "first_valid_time"
  let evaluationCutoff ← textField P record "evaluation_cutoff"
  check (firstValidTime ≠ [] ∧ evaluationCutoff ≠ [] ∧ firstValidTime ≤ evaluationCutoff)
    (.semantic (py "RS0_BASE_CANDIDATE_CAUSALITY_INVALID"))
  let geometry ← match Dict.get? record (py "geometry_signature") with
    | some (.dict items) => .ok items
    | _ => .error (.semantic (py "RS0_GEOMETRY_SIGNATURE_REQUIRED"))
  let relations ← match Dict.get? record (py "relation_topology") with
    | some (.list xs) => .ok xs
    | _ => .error (.semantic (py "RS0_RELATION_TOPOLOGY_LIST_REQUIRED"))
  let topology ← relations.mapM fun relation => (relation.strOf P).mapError .python
  check (∀ field ∈ contract.required, .str (py field) ∈ Dict.keys geometry)
    (.semantic (py contract.incomplete))
  let ownerGeometryClass ← pick geometry contract.ownerFields
  let numericGeometryState ← pick geometry contract.numericFields
  let sourceRecordId ← textField P record "source_record_id"
  check (sourceRecordId ≠ []) (.semantic (py "RS0_SOURCE_RECORD_ID_REQUIRED"))
  let material : Material :=
    { sourceRecordId, sourceRecordKind := sourceKind, firstValidTime, evaluationCutoff
      hardScope :=
        { instrument := py "GBPUSD", side, clock := py "15M"
          structuralRoleId := py contract.structuralRoleId
          geometryKindId := py contract.geometryKindId }
      structuralRoleId := py contract.structuralRoleId
      geometryKindId := py contract.geometryKindId
      geometrySignature := geometry, ownerGeometryClass, numericGeometryState
      relationTopology := sortedSet topology, candidateMaterialHash := [] }
  let hash ← canonicalHash P (.ofRecord material.payload)
  return { material with candidateMaterialHash := hash }

/-! ## Pairs of materials -/

/-- `geometry_residuals`. -/
def geometryResiduals (previous current : Material) : Except Error (List (PyStr × PyStr)) := do
  check (previous.sourceRecordKind = current.sourceRecordKind)
    (.semantic (py "RS0_RESIDUAL_SOURCE_KIND_MISMATCH"))
  let old := previous.numericGeometryState
  let new := current.numericGeometryState
  check ((∀ field ∈ old.keys, field ∈ new.keys) ∧
      ∀ field ∈ new.keys, field ∈ old.keys)
    (.semantic (py "RS0_RESIDUAL_FIELD_SET_MISMATCH"))
  (sortedBy (fun field => field) old.keys).mapM fun field => do
    let after ← decimal P ((new.get? field).getD .none) field
    let before ← decimal P ((old.get? field).getD .none) field
    let difference ← (P.decimalSub after before).mapError .python
    return (field, decimalText difference)

/-- `owner_declared_geometry_compatible`. -/
def ownerDeclaredGeometryCompatible (previous current : Material) :
    Except Error (Bool × List (PyStr × PyStr)) :=
  if previous.sourceRecordKind = current.sourceRecordKind ∧
      previous.hardScope = current.hardScope ∧
      PyVal.pyEq (.ofRecord previous.ownerGeometryClass)
        (.ofRecord current.ownerGeometryClass) = true then
    (geometryResiduals P previous current).map fun residuals => (true, residuals)
  else .ok (false, [])

/-- `c2e_dependency_disposition`. -/
def c2eDependencyDisposition (structuralRoleId : PyStr) (registry : Record) :
    Except Error PyStr := do
  let entries ← match registry.get? (py "entries") with
    | some (.list entries) => .ok entries
    | _ => .error (.semantic (py "RS0_C2E_DEPENDENCY_REGISTRY_INVALID"))
  let matched ← entries.mapM fun row =>
    if row.isMapping then
      .ok (decide (row.get? (py "structural_role_id") = some (.str structuralRoleId)))
    else .error (.python .attributeError)
  check (true ∉ matched) (.semantic (py "RS0_C2E_DEPENDENCY_ROLE_UNBOUND"))
  return py "NOT_APPLICABLE_C2_ONLY"

/-- The research candidates, by their identity predicates. -/
inductive Profile where
  | strictContinuity
  | relationalContinuity
  | episodeEnrichedContinuity
  deriving DecidableEq, Repr

/-- The candidate of an id. -/
def profileOf (candidateId : PyStr) : Except Error Profile :=
  if candidateId = py "C2P2-PS0-OP-A-STRICT-CONTINUITY-v2" then .ok .strictContinuity
  else if candidateId = py "C2P2-PS0-OP-B-RELATIONAL-CONTINUITY-v2" then .ok .relationalContinuity
  else if candidateId = py "C2P2-PS0-OP-C-EPISODE-ENRICHED-CONTINUITY-v2" then
    .ok .episodeEnrichedContinuity
  else .error (.semantic (py "RS0_EMPIRICAL_CANDIDATE_ID_UNKNOWN"))

/-- What a comparison of two materials finds. -/
structure PairEvaluation where
  candidateId : PyStr
  predicateResults : List (PyStr × Bool)
  geometryResiduals : List (PyStr × PyStr)
  numericResidualPolicy : PyStr
  c2eDependencyDisposition : PyStr
  sameObjectPairSupported : Bool

/-- The predicates of a candidate of its own. -/
def packPredicates (profile : Profile) (exactGeometry topologyEqual ownerCompatible : Bool)
    (disposition : PyStr) : List (PyStr × Bool) :=
  match profile with
  | .strictContinuity => [(py "same_geometry_signature", exactGeometry)]
  | .relationalContinuity =>
    [(py "same_relation_topology", topologyEqual),
      (py "owner_declared_geometry_compatible", ownerCompatible)]
  | .episodeEnrichedContinuity =>
    [(py "owner_declared_geometry_compatible", ownerCompatible),
      (py "c2e_lineage_compatible_if_declared",
        decide (disposition = py "NOT_APPLICABLE_C2_ONLY"))]

/-- `evaluate_pair`. -/
def evaluatePair (candidateId : PyStr) (previous current : Material) (registry : Record)
    (priorTerminalBreak explicitDiscontinuity : Bool) : Except Error PairEvaluation := do
  let profile ← profileOf candidateId
  let sameHardScope := decide (previous.hardScope = current.hardScope)
  let chronologyContiguous := !explicitDiscontinuity &&
    decide (previous.firstValidTime ≤ previous.evaluationCutoff) &&
    decide (current.firstValidTime ≤ current.evaluationCutoff) &&
    decide (previous.firstValidTime ≤ current.firstValidTime)
  let exactGeometry :=
    PyVal.pyEq (.dict previous.geometrySignature) (.dict current.geometrySignature)
  let (ownerCompatible, residuals) ← ownerDeclaredGeometryCompatible P previous current
  let topologyEqual := decide (previous.relationTopology = current.relationTopology)
  let disposition ← c2eDependencyDisposition current.structuralRoleId registry
  let predicateResults :=
    (py "same_hard_scope", sameHardScope) ::
      (packPredicates profile exactGeometry topologyEqual ownerCompatible disposition ++
        [(py "no_terminal_break", !priorTerminalBreak),
          (py "chronology_contiguous", chronologyContiguous)])
  return {
    candidateId, predicateResults, geometryResiduals := residuals
    numericResidualPolicy := py "EVIDENCE_ONLY_NO_PASS_THRESHOLD"
    c2eDependencyDisposition := disposition
    sameObjectPairSupported := predicateResults.all Prod.snd }

end OvcReplay.C2p.Rs0
