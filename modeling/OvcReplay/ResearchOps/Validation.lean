import OvcReplay.P1cdi.Reference

/-! # Records of research operations

`validation.py` and `availability.py`: the envelope of a version 0.1 record and its references.
The preregistrations of Path 2, the records of version 0.2 and the payloads of BCWT records have
validators of their own, which may accept and refuse what they like. -/

namespace OvcReplay.ResearchOps

open Python Json

/-- What the stores of research operations raise. -/
inductive ResearchError where
  | python (e : PyError)
  /-- `RecordValidationError` with its code. -/
  | validation (code : PyStr)
  /-- `FrozenRecordMutationError`. -/
  | mutation
  /-- `AppendOnlyViolationError`. -/
  | appendOnly
  /-- `FileNotFoundError`. -/
  | notFound
  deriving DecidableEq, Repr

/-- `s.lower()` of an ASCII text. -/
def asciiLower (s : PyStr) : PyStr :=
  s.map fun c =>
    (((py "ABCDEFGHIJKLMNOPQRSTUVWXYZ").zip (py "abcdefghijklmnopqrstuvwxyz")).lookup c).getD c

/-- The functions that the stores call and this development leaves open. -/
structure Environment where
  /-- `s.lower()`. -/
  lower : PyStr → PyStr
  lower_of_isAscii : ∀ s, IsAscii s → lower s = asciiLower s
  /-- `verify_path2_prereg_record`. -/
  verifyPath2PreregRecord : Record → Except ResearchError Unit
  /-- `verify_dmrp_record`. -/
  verifyDmrpRecord : Record → Except ResearchError Unit
  /-- `validate_bcwt_payload`. -/
  validateBcwtPayload : PyStr → PyVal → Except ResearchError Unit

/-! ## Tables -/

/-- `BCWT_RECORD_DIRECTORIES`. -/
def bcwtRecordDirectories : List (String × String) :=
  [("BCWT_B_TO_C_ORIGIN.v0.1", "bcwt/origins"),
    ("BCWT_CONSEQUENCE_MEASUREMENT_PACK.v0.1", "bcwt/consequence_packs"),
    ("BCWT_OUTCOME_JOIN_MANIFEST.v0.1", "bcwt/join_manifests"),
    ("BCWT_OUTCOME_RECORD.v0.1", "bcwt/outcomes"),
    ("BCWT_OUTCOME_LEDGER.v0.1", "bcwt/ledgers"),
    ("BCWT_MECHANICAL_RUN_RECEIPT.v0.1", "bcwt/run_receipts")]

/-- `BCWT_PAYLOAD_REQUIRED`. -/
def bcwtPayloadRequired : List (String × List String) :=
  [("BCWT_B_TO_C_ORIGIN.v0.1",
      ["schema", "logical_id", "origin_contract_id", "reference_id", "observer_state_id",
        "observer_generation", "segment_id", "origin_cutoff_fvt_ms", "input_prefix_chain_sha256",
        "shared_fixed_asset_set_id", "source_population_ref", "state_row_sha256",
        "component_status_map", "epistemic_non_knowledge", "source_break_state",
        "candidate_generation_id_or_none", "candidate_occurrence_id_or_none",
        "candidate_evaluation_admission_id_or_none", "origin_role", "authority_effect",
        "scientific_effect"]),
    ("BCWT_CONSEQUENCE_MEASUREMENT_PACK.v0.1",
      ["schema", "consequence_pack_id", "version", "source_binding", "price_side_policy",
        "path_clock", "anchor_specs", "fixed_horizons_observed_bars", "measurement_specs",
        "structural_consequence_specs", "censoring_rules", "gap_rules", "missingness_rules",
        "prohibited_semantics", "created_before_payload_access", "authority_effect",
        "scientific_effect", "fixture_only"]),
    ("BCWT_OUTCOME_JOIN_MANIFEST.v0.1",
      ["schema", "logical_id", "execution_role", "candidate_generation_id_or_none",
        "candidate_population_binding_or_none", "candidate_occurrence_set_hash_or_none",
        "candidate_evaluation_admission_id_or_none", "mechanical_origin_set_hash",
        "origin_contract_id", "reference_id", "consequence_pack_id", "source_release_ref",
        "instrument", "side", "clock", "anchor_spec_id", "censoring_policy_id",
        "authority_effect", "scientific_effect"]),
    ("BCWT_OUTCOME_RECORD.v0.1",
      ["schema", "logical_id", "origin_id", "observer_state_id", "consequence_pack_id",
        "join_manifest_id", "anchor_spec_id", "horizon_observed_bars", "measurement_spec_id",
        "terminal_status", "measurement_state", "value", "authority_effect", "scientific_effect"]),
    ("BCWT_OUTCOME_LEDGER.v0.1",
      ["schema", "logical_id", "join_manifest_id", "consequence_pack_id", "expected_rows",
        "actual_rows", "terminal_status_counts", "records", "authority_effect",
        "scientific_effect"]),
    ("BCWT_MECHANICAL_RUN_RECEIPT.v0.1",
      ["schema", "run_receipt_id", "execution_role", "reference_id", "consequence_pack_id",
        "join_manifest_id", "origin_count", "expected_rows", "actual_rows",
        "terminal_status_counts", "replay_digest", "authority_effect", "scientific_effect"])]

/-- `PAYLOAD_REQUIRED`, whose keys are `RECORD_TYPES`. -/
def payloadRequired : List (String × List String) :=
  [("DATA_RELEASE_REF", ["release_id", "manifest_id", "manifest_sha256", "role", "instrument",
      "coverage_start", "coverage_end", "clocks", "sides", "qa_state", "validation_access_state"]),
    ("RESEARCH_SESSION", ["objective", "instrument", "research_role", "session_state",
      "objects_reviewed"]),
    ("OBSERVATION_SNAPSHOT", ["session_id", "visible_facts", "unknowns", "source_record_refs"]),
    ("CLAIM_RECORD", ["observation_id", "eligibility", "discriminator", "falsifier", "horizons"]),
    ("REALIZATION_SNAPSHOT", ["observation_id", "reference_time", "horizon", "coverage", "path",
      "censoring_state"]),
    ("EVIDENCE_ITEM", ["observation_id", "claim_id", "realization_id", "evidence_role",
      "admissibility"]),
    ("CASE_BUNDLE", ["title", "record_refs", "artifact_refs", "review_state"]),
    ("INCIDENT_RECORD", ["incident_code", "severity", "target_id", "description",
      "blocking_effect"]),
    ("DECISION_RECORD", ["decision_scope", "disposition", "reason", "authority_delta", "rollback"]),
    ("AUDIT_EVENT", ["actor", "action", "object_id", "result", "trace_ref"]),
    ("RO4_SEQUENCE_BOUNDARY_ANNOTATION.v0.1", ["source_sequence_id", "source_release_id",
      "manifest_sha256", "clock", "side", "member_ids", "member_first_valid_times",
      "operation_mode", "annotation", "rationale", "record_authority", "c2_mutation",
      "pd_population_write", "semantic_authority"]),
    ("RO4_C2E_FRICTION_RECORD.v0.1", ["source_sequence_id", "source_release_id",
      "source_first_valid_times", "operation_mode", "reason_code", "evidence_refs",
      "counterexample_refs", "remediation_ref", "rationale", "record_authority", "c2_mutation",
      "c2e_opening", "pd_population_write", "semantic_authority"]),
    ("RO4_PROSPECTIVE_SEQUENCE_REVIEW.v0.1", ["source_sequence_id",
      "source_release_and_manifest", "operation_mode", "admissible", "post_cutoff_review",
      "logical_hash", "source_first_valid_times", "record_authority",
      "replay_to_prospective_translation", "validation_consumption"]),
    ("RO4_SIGNATURE_CONCENTRATION_ACKNOWLEDGEMENT.v0.1", ["population_id",
      "diversity_audit_logical_hash", "warning_status", "acknowledgement", "record_authority",
      "promotion_authority"])] ++ bcwtPayloadRequired

/-- `COMMON_REQUIRED`. -/
def commonRequired : List String :=
  ["record_type", "schema_version", "lifecycle_state", "created_at", "frozen_at", "operator_id",
    "admissible_cutoff", "source_release_refs", "artifact_refs", "missingness", "lineage",
    "authority_state", "reproducibility_state", "payload", "content_sha256"]

/-- The entry of a table under a name. -/
def tableAt? {α : Type} (table : List (String × α)) (name : PyStr) : Option α :=
  (table.find? fun p => py p.1 = name).map Prod.snd

/-! ## Pieces -/

/-- `record.get(key, default)`. -/
def getD (record : Record) (key : String) (default : PyVal) : PyVal :=
  (record.get? (py key)).getD default

/-- The value is the text `name`. -/
def isText (v : PyVal) (name : String) : Bool := decide (v = .str (py name))

/-- A call into the standard library. -/
def python {α : Type} (r : Except PyError α) : Except ResearchError α := r.mapError .python

/-- `RecordValidationError` when the condition does not hold. -/
def require (condition : Prop) [Decidable condition] (code : String) : Except ResearchError Unit :=
  check condition (.validation (py code))

/-- A member of `set(v)`, if it is a text. -/
def name? : PyVal → Option PyStr
  | .str s => some s
  | _ => none

/-- `set(v)`, as far as it has texts. -/
def setOf : PyVal → Except PyError (List (Option PyStr))
  | .dict items => .ok (items.map fun p => keyStr? p.1)
  | .list xs => if xs.all PyVal.hashable then .ok (xs.map name?) else .error .typeError
  | .tuple xs => if xs.all PyVal.hashable then .ok (xs.map name?) else .error .typeError
  | .set xs => .ok (xs.map name?)
  | .str s => .ok (s.map fun c => some [c])
  | _ => .error .typeError

variable (P : Platform) (E : Environment)

/-- `value[:-1] + "+00:00"` of a value that ends with `Z`. -/
def offsetOfZ (value : PyStr) : PyStr :=
  if value.getLast? = some (CodePoint.ofChar 'Z') then value.dropLast ++ py "+00:00" else value

/-- `_dt`. -/
def dt (value : PyVal) : Except ResearchError Datetime :=
  match value with
  | .str s =>
    match P.fromIsoFormat (offsetOfZ s) with
    | none => .error (.python .valueError)
    | some parsed =>
      if parsed.utcOffset = none then .error (.validation (py "INVALID_TIME")) else .ok parsed
  | _ => .error (.python .attributeError)

/-- A time of a reference is not after the cutoff. -/
def checkTime (cutoff : Datetime) (ref : PyVal) (key : String) : Except ResearchError Unit := do
  let value ← python (ref.getOr (py key) .none)
  if value.truthy then
    let time ← dt P value
    require (time.instant ≤ cutoff.instant) "POST_CUTOFF_REFERENCE"

/-- The times of a reference are not after the cutoff. -/
def checkReference (cutoff : Datetime) (ref : PyVal) : Except ResearchError Unit := do
  checkTime P cutoff ref "first_valid_time"
  checkTime P cutoff ref "available_at"

variable (record : Record)

/-- The references of a group: `record.get(group, []) or []`. -/
def groupRefs (group : String) : Except ResearchError (List PyVal) :=
  let value := getD record group (.list [])
  if value.truthy then python value.eachMapping else .ok []

/-- The validation release is referred to by its metadata alone. -/
def checkValidationRelease (ref : PyVal) : Except ResearchError Unit := do
  let release ← python (ref.getOr (py "release_id") .none)
  if isText release "OPT-A.GBPUSD.VALIDATION.2025.v2" then
    require (isText ((ref.get? (py "validation_access_state")).getD .none) "LOCKED_UNCONSUMED" ∧
      (ref.get? (py "payload_access")).getD .none ∈ [.none, .str (py "DENIED")] ∧
      ∀ key ∈ ["payload_ref", "bar_id", "object_path"], ref.get? (py key) = none)
      "VALIDATION_PAYLOAD_ACCESS_DENIED"

/-- `derive_reproducibility_state`. -/
def deriveReproducibilityState (artifactRefs : PyVal) : Except PyError PyStr := do
  let refs ← artifactRefs.eachMapping
  let needed ← refs.mapM fun ref => (ref.getOr (py "required") (.bool true)).map PyVal.truthy
  let required := ((refs.zip needed).filter fun p => p.2).map Prod.fst
  let verified := required.countP fun ref =>
    isText ((ref.get? (py "availability")).getD .none) "VERIFIED"
  if required = [] then return py "REPRODUCIBLE"
  else if verified = required.length then return py "REPRODUCIBLE"
  else if verified = 0 then return py "NOT_REPRODUCIBLE"
  else return py "PARTIALLY_AVAILABLE"

/-! ## The record -/

/-- The type of a record is one of the known ones, with the fields its payload needs. -/
def knownType (recordType : PyVal) : Except ResearchError (PyStr × List String) :=
  match recordType with
  | .str name =>
    match tableAt? payloadRequired name with
    | some required => .ok (name, required)
    | none => .error (.validation (py "UNKNOWN_RECORD_TYPE"))
  | v =>
    if v.hashable then .error (.validation (py "UNKNOWN_RECORD_TYPE"))
    else .error (.python .typeError)

/-- The keys of the lineage. -/
def checkLineage : Except ResearchError Unit := do
  let keys ← python (setOf (getD record "lineage" .none))
  let names := ["parent", "derived_from", "supersedes", "adjudicates"].map fun name =>
    some (py name)
  require (keys ⊆ names ∧ names ⊆ keys) "INVALID_LINEAGE"

/-- The fields of the payload. -/
def checkPayload (name : PyStr) (required : List String) :
    Except ResearchError Unit := do
  let payload := getD record "payload" .none
  let keys ← python (setOf payload)
  require (∀ field ∈ required, some (py field) ∈ keys) "MISSING_PAYLOAD_FIELD"
  if (tableAt? bcwtRecordDirectories name).isSome then E.validateBcwtPayload name payload

/-- The times of all references. -/
def checkReferences : Except ResearchError Unit := do
  let cutoff ← dt P (getD record "admissible_cutoff" .none)
  ["source_release_refs", "artifact_refs", "model_refs"].forM fun group => do
    (← groupRefs record group).forM (checkReference P cutoff)

/-- The source releases. -/
def checkReleases : Except ResearchError Unit := do
  (← python (getD record "source_release_refs" (.list [])).eachMapping).forM checkValidationRelease

/-- The reproducibility state of a record that is no draft is the one its artifacts give. -/
def checkReproducibility : Except ResearchError Unit := do
  let expected ← python (deriveReproducibilityState (getD record "artifact_refs" (.list [])))
  require (isText (getD record "lifecycle_state" .none) "DRAFT" ∨
    getD record "reproducibility_state" .none = .str expected) "REPRODUCIBILITY_STATE_MISMATCH"

/-- The envelope of version 0.1. -/
def validateEnvelope : Except ResearchError Unit := do
  require (∀ field ∈ commonRequired, (record.get? (py field)).isSome) "MISSING_ENVELOPE_FIELD"
  let (name, required) ← knownType (getD record "record_type" .none)
  require (isText (getD record "schema_version" .none) "0.1") "SCHEMA_VERSION_MISMATCH"
  checkLineage record
  checkPayload E record name required
  checkReferences P record
  checkReleases record
  checkReproducibility record

/-- `validate_record`. -/
def validateRecord : Except ResearchError Unit :=
  if isText (getD record "schema_family" .none) "DMRP_PATH2_PREREG" then
    E.verifyPath2PreregRecord record
  else if isText (getD record "schema_version" .none) "0.2" then E.verifyDmrpRecord record
  else validateEnvelope P E record

end OvcReplay.ResearchOps
