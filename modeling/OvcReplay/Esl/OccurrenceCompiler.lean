import OvcReplay.Esl.Occurrence

/-! # The occurrence compiler

`compile_structural_occurrence`: the observation and the profiles are checked, each profile is read
into a component of the facet of its axis, and the record that the validators accept gets its id. -/

namespace OvcReplay.Esl

open Python SharedSystems

/-- A `Mapping[str, Any]` that was copied. -/
abbrev Mapping := List (PyKey × PyVal)

/-- `mapping.get(name)`. -/
def Mapping.getD (m : Mapping) (name : PyStr) : PyVal := (Dict.get? m (.str name)).getD .none

/-- `_PROHIBITED_EVIDENCE_KEYS`. -/
def prohibitedEvidenceKeys : List PyStr :=
  [py "future", py "future_value", py "forward_outcome", py "outcome", py "probability", py "risk",
    py "exposure", py "trade", py "trading", py "execution"]

section Compiler

variable (P : Platform) (L : Language) (lower : PyStr → PyStr)

mutual

/-- `_scan_prohibited`. -/
def scanProhibited (path : PyStr) : PyVal → Except OccurrenceError Unit
  | .dict items => scanItems path items
  | .list xs => scanElements path 0 xs
  | .tuple xs => scanElements path 0 xs
  | _ => .ok ()

/-- `_scan_prohibited` of the items of a mapping. -/
def scanItems (path : PyStr) : List (PyKey × PyVal) → Except OccurrenceError Unit
  | [] => .ok ()
  | (k, v) :: items => do
    let key ← k.strOf.mapError .python
    check (lower key ∉ prohibitedEvidenceKeys)
      (.compile (py "ESL_PROHIBITED_EVIDENCE_KEY:" ++ path ++ py "." ++ key))
    scanProhibited (path ++ py "." ++ key) v
    scanItems path items

/-- `_scan_prohibited` of the elements of an array from an index on. -/
def scanElements (path : PyStr) (index : Nat) : List PyVal → Except OccurrenceError Unit
  | [] => .ok ()
  | x :: xs => do
    scanProhibited (path ++ py "[" ++ natText index ++ py "]") x
    scanElements path (index + 1) xs

end

/-- `str(v)`. -/
def strOf (v : PyVal) : Except OccurrenceError PyStr := (PyVal.strOf P v).mapError .python

/-- `str(v or "")`. -/
def strOrEmpty (v : PyVal) : Except OccurrenceError PyStr :=
  if v.truthy then strOf P v else .ok []

/-- `[str(x) for x in v]`. -/
def strEach : PyVal → Except OccurrenceError (List PyStr)
  | .list xs => xs.mapM (strOf P)
  | .tuple xs => xs.mapM (strOf P)
  | .set xs => xs.mapM (strOf P)
  | .str s => .ok (s.map fun c => [c])
  | .dict items => items.mapM fun p => p.1.strOf.mapError .python
  | _ => .error (.python .typeError)

/-- `_require_bootstrap_observation`. -/
def requireBootstrapObservation (observation : Mapping) : Except OccurrenceError Unit := do
  let schema ← strOf P (observation.getD (py "schema"))
  check (schema = py "c2_observation/vnext-r1") (.compile (py "ESL_C2_SOURCE_SCHEMA_INVALID"))
  check (str? (observation.getD (py "instrument")) = some (py "GBPUSD") ∧
    str? (observation.getD (py "side")) = some (py "BID"))
    (.compile (py "ESL_BOOTSTRAP_SCOPE_MISMATCH"))
  let start ← strOf P (observation.getD (py "interval_start"))
  let stop ← strOf P (observation.getD (py "interval_end"))
  check (start ≠ [] ∧ stop ≠ []) (.compile (py "ESL_C2_INTERVAL_MISSING"))
  let startTime ← parseUtc P start (py "c2.interval_start")
  let stopTime ← parseUtc P stop (py "c2.interval_end")
  check (stopTime - startTime = 15 * 60 * 1000000)
    (.compile (py "ESL_BOOTSTRAP_SCALE_MISMATCH"))
  let eligible ← match Dict.get? observation (.str (py "projection_eligibility")) with
    | none => .ok false
    | some (.dict eligibility) =>
      match Mapping.getD eligibility (py "eligible") with
      | .bool true => .ok true
      | _ => .ok false
    | some _ => .error (.python .attributeError)
  check (eligible = true) (.compile (py "ESL_REQUIRED_C2_OBSERVATION_NOT_ELIGIBLE"))
  check ((observation.getD (py "observation_id")).truthy = true ∧
    (observation.getD (py "first_valid_time")).truthy = true)
    (.compile (py "ESL_C2_IDENTITY_OR_FVT_MISSING"))
  let fvt ← strOf P (observation.getD (py "first_valid_time"))
  let _ ← parseUtc P fvt (py "c2.first_valid_time")
  return ()

/-- What `_facet` reads from one profile. -/
structure Component where
  profileOutputId : PyStr
  profileId : PyVal
  computability : PyStr
  reasonCodes : List PyStr
  facts : PyVal

/-- An entry of `components`. -/
def Component.payload (c : Component) : PyVal := object
  [(py "profile_output_id", .str c.profileOutputId), (py "profile_id", c.profileId),
    (py "computability", .str c.computability),
    (py "reason_codes", .list (c.reasonCodes.map PyVal.str)), (py "facts", c.facts)]

variable (axis : StructuralDimension)

/-- One round of `_facet`. -/
def readProfile (cutoff : Int) (profile : Mapping) :
    Except OccurrenceError Component := do
  check (str? (profile.getD (py "axis")) = some axis.text)
    (.compile (py "ESL_C2_PROFILE_AXIS_MISMATCH"))
  let profileId ← strOrEmpty P (profile.getD (py "profile_output_id"))
  check (profileId ≠ []) (.compile (py "ESL_C2_PROFILE_ID_MISSING"))
  let asOf ← strOrEmpty P (profile.getD (py "as_of_time"))
  check (asOf ≠ []) (.compile (py "ESL_C2_PROFILE_AFTER_CUTOFF"))
  let asOfTime ← parseUtc P asOf (py "profile:" ++ profileId ++ py ":as_of_time")
  check (asOfTime ≤ cutoff) (.compile (py "ESL_C2_PROFILE_AFTER_CUTOFF"))
  let state ← strOf P (profile.getD (py "computability"))
  check (state = py "COMPUTABLE" ∨ state = py "NOT_COMPUTABLE")
    (.compile (py "ESL_C2_PROFILE_COMPUTABILITY_UNKNOWN"))
  let reasons ← strEach P ((Dict.get? profile (.str (py "reason_codes"))).getD (.list []))
  return ⟨profileId, profile.getD (py "profile_id"), state, sortedBy id reasons,
    profile.getD (py "facts")⟩

/-- The facet of the components of an axis. -/
def assemble (components : List Component) : StructuralFacet :=
  let sources := components.map Component.profileOutputId
  let reasons := components.flatMap Component.reasonCodes
  if components = [] then ⟨axis, .missing, [], none, [py "C2_AXIS_PROFILE_MISSING"]⟩
  else if components.all fun c => decide (c.computability ≠ py "COMPUTABLE") then
    ⟨axis, .notEvaluable, sources, none,
      sortedSet (if reasons = [] then [py "C2_AXIS_NOT_COMPUTABLE"] else reasons)⟩
  else
    ⟨axis, .available, sources,
      some (object [(py "components", .list (components.map Component.payload))]),
      sortedSet reasons⟩

/-- The components of an axis, in the order of the ids of their profiles. -/
def componentsOf (cutoff : Int) (profiles : List Mapping) :
    Except OccurrenceError (List Component) := do
  let keyed ← profiles.mapM fun profile =>
    (strOf P (profile.getD (py "profile_output_id"))).map fun key => (key, profile)
  ((sortedBy Prod.fst keyed).map Prod.snd).mapM (readProfile P axis cutoff)

/-- `_facet`. -/
def facetOf (cutoff : Int) (profiles : List Mapping) : Except OccurrenceError StructuralFacet :=
  (componentsOf P axis cutoff profiles).map (assemble axis)

/-- The profiles with the texts of their axes, once these are known. -/
def placeProfiles (profiles : List Mapping) : Except OccurrenceError (List (PyStr × Mapping)) := do
  check (∀ profile ∈ profiles, str? (profile.getD (py "axis")) ≠ some (py "QUALITY"))
    (.compile (py "ESL_GLOBAL_QUALITY_PROFILE_FORBIDDEN"))
  let placed ← profiles.mapM fun profile =>
    (strOf P (profile.getD (py "axis"))).map fun axis => (axis, profile)
  let unknown := sortedSet
    ((placed.map Prod.fst).filter fun axis => axis ∉ StructuralDimension.all.map (·.text))
  check (unknown = [])
    (.compile (py "ESL_UNKNOWN_STRUCTURAL_DIMENSION:" ++ commaJoin unknown))
  return placed

/-- `by_axis[axis]`. -/
def onAxis (placed : List (PyStr × Mapping)) (axis : StructuralDimension) : List Mapping :=
  (placed.filter fun p => p.1 = axis.text).map Prod.snd

/-- The facets of all axes. -/
def facetsOf (cutoff : Int) (placed : List (PyStr × Mapping)) :
    Except OccurrenceError (List StructuralFacet) :=
  StructuralDimension.all.mapM fun axis => facetOf P axis cutoff (onAxis placed axis)

/-- The arguments of the compiler besides the profiles and the optional dependencies. -/
structure Subject where
  observation : Mapping
  sourceGenerationId : PyStr
  evaluationCutoff : Option PyStr
  pack : OccurrencePack

variable (s : Subject)

/-- `evaluation_cutoff or str(observation["first_valid_time"])`. -/
def Subject.cutoff (observationFvt : PyStr) : PyStr :=
  if s.evaluationCutoff.getD [] = [] then observationFvt else s.evaluationCutoff.getD []

/-- The reference to the observation. -/
def requiredRef (observationId observationFvt : PyStr) : DependencyRef where
  refId := observationId
  owner := py "C2"
  objectType := py "C2Observation"
  role := .required
  evidenceState := .available
  firstValidTime := some observationFvt
  generationId := s.sourceGenerationId
  comparabilityDomainId := s.pack.comparabilityDomainId
  identityDefining := true

/-- The references whose latest time becomes the time of the record. -/
def isRequired (ref : DependencyRef) : Bool :=
  ref.role == .required && ref.evidenceState == .available && ref.firstValidTime.getD [] != []

/-- The roles whose references are listed as optional. -/
def isOptional (ref : DependencyRef) : Bool :=
  ref.role == .optional || ref.role == .stratifier || ref.role == .filter ||
    ref.role == .displayOnly || ref.role == .provenanceOnly

/-- The frontier of the references. -/
def frontierOf (pack : OccurrencePack) (cutoff : PyStr) (latest : Option PyStr)
    (refs : List DependencyRef) : EvidenceFrontier where
  evaluationCutoff := cutoff
  requiredRefIds := sortedBy id
    ((refs.filter fun ref => ref.role = .required).map DependencyRef.refId)
  optionalRefIds := sortedBy id ((refs.filter isOptional).map DependencyRef.refId)
  missingRefIds := sortedBy id
    ((refs.filter fun ref => ref.evidenceState ≠ .available).map DependencyRef.refId)
  sourceGenerationIds := generationsOf refs
  latestRequiredFvt := latest
  dependencyRoles := Dict.ofItems (refs.map fun ref => (ref.refId, ref.role))
  comparabilityDomainId := pack.comparabilityDomainId

/-- The record of the facets and the references. -/
def draftOf (cutoff observationFvt : PyStr) (facets : List StructuralFacet)
    (refs : List DependencyRef) : Except OccurrenceError StructuralOccurrenceRecord := do
  let times ← parseTimes P (refs.filter isRequired)
  let latest := (latest? times).map fun t => P.isoText t ++ py "Z"
  let frontier := frontierOf s.pack cutoff latest refs
  let frontierHash ← evidenceFrontierLogicalHash P L frontier.items
  let observationId ← strOf P (s.observation.getD (py "observation_id"))
  let start ← strOf P (s.observation.getD (py "interval_start"))
  let stop ← strOf P (s.observation.getD (py "interval_end"))
  let schema ← strOf P (s.observation.getD (py "schema"))
  return {
    occurrenceRecordId := none
    occurrencePackId := s.pack.occurrencePackId
    anchor := ⟨py "C2_OBSERVATION", observationId, py "GBPUSD", py "BID", py "15M", py "UTC"⟩
    evaluationCutoff := cutoff
    firstValidTime := latest.getD observationFvt
    effectiveTime := start
    facets := facets
    dependencyRefs := refs
    evidenceFrontier := frontier
    sourceGenerationIds := generationsOf refs
    comparabilityDomainId := s.pack.comparabilityDomainId
    authorityState := py "INACTIVE_CONFORMANCE_ONLY"
    extensions := [(py "compiler_id", .str (py "ESLI.STRUCTURAL_OCCURRENCE.REFERENCE.v0.1")),
      (py "effective_end", .str stop), (py "evidence_frontier_logical_hash", .str frontierHash),
      (py "source_schema", .str schema)] }

/-- `validate_occurrence` of a draft, whose errors become those of the compiler. -/
def validateDraft (draft : StructuralOccurrenceRecord) (pack : OccurrencePack) :
    Except OccurrenceError Unit :=
  (validateOccurrence P draft pack).mapError fun e =>
    match e with
    | .validation code => .compile code
    | e => e

/-- `compile_structural_occurrence`. -/
def compileStructuralOccurrence (profileOutputs : List Mapping)
    (optionalDependencies : List DependencyRef) :
    Except OccurrenceError StructuralOccurrenceRecord := do
  scanProhibited lower (py "$") (.dict s.observation)
  scanProhibited lower (py "$") (.list (profileOutputs.map PyVal.dict))
  requireBootstrapObservation P s.observation
  check (s.sourceGenerationId ≠ []) (.compile (py "ESL_SOURCE_GENERATION_ID_REQUIRED"))
  let placed ← placeProfiles P profileOutputs
  let observationFvt ← strOf P (s.observation.getD (py "first_valid_time"))
  let cutoff := s.cutoff observationFvt
  let cutoffTime ← parseUtc P cutoff (py "evaluation_cutoff")
  let observationTime ← parseUtc P observationFvt (py "c2.first_valid_time")
  check (observationTime ≤ cutoffTime) (.compile (py "ESL_REQUIRED_C2_AFTER_CUTOFF"))
  let facets ← facetsOf P cutoffTime placed
  let observationId ← strOf P (s.observation.getD (py "observation_id"))
  let refs := requiredRef s observationId observationFvt :: optionalDependencies
  let draft ← draftOf P L s cutoff observationFvt facets refs
  validateDraft P draft s.pack
  let recordId ← occurrenceRecordId P L draft.items
  let final := { draft with occurrenceRecordId := some recordId }
  validateOccurrence P final s.pack
  return final

end Compiler

end OvcReplay.Esl
