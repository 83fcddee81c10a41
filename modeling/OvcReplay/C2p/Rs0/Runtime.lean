import OvcReplay.C2p.Rs0.Objects

/-! # The RS0 runtime

`rs0_empirical_runtime.py`: rows are visited in stream order, and each is matched with the
assertions and then with the open tracklets of its scope. A run ends in a checkpointed state from
which a later run continues. -/

namespace OvcReplay.C2p.Rs0

open Python

variable (P : Platform)

/-- The ids of the objects of each scope. -/
structure Indexes where
  assertionIdsByScope : Dict PyStr (List PyStr)
  openTrackletIdsByScope : Dict PyStr (List PyStr)

/-- The result of a run, which is the state a later run starts from. -/
structure RuntimeState where
  schema : PyStr
  runtimeBindingId : PyStr
  objectPackCandidateId : PyStr
  semanticCandidateId : PyStr
  selectionState : PyStr
  activationState : PyStr
  realSourceLaunch : PyStr
  processedSourceRecordIds : List PyStr
  lastStreamOrderKey : Option (PyStr ×ₗ PyStr)
  candidates : List Candidate
  tracklets : List Tracklet
  objectAssertions : List Assertion
  matchDecisions : List Decision
  evidenceVectors : List EvidenceVector
  indexes : Indexes
  checkpointSha256 : Option PyStr

/-- `RUNTIME_SCHEMA`. -/
def runtimeSchema : PyStr := py "ovc-c2p2-rs0-empirical-runtime-result/v1"

/-- `RUNTIME_BINDING_ID`. -/
def runtimeBinding : PyStr := py "C2P2_RS0_EMPIRICAL_RUNTIME_BINDING_v0_1"

/-- The dictionary of an index. -/
def indexVal (index : Dict PyStr (List PyStr)) : PyVal :=
  .ofRecord (index.map fun p => (p.1, PyVal.ofStrs p.2))

/-- The state without its checkpoint. -/
def RuntimeState.payload (s : RuntimeState) : Record :=
  [(py "schema", .str s.schema), (py "runtime_binding_id", .str s.runtimeBindingId),
    (py "object_pack_candidate_id", .str s.objectPackCandidateId),
    (py "semantic_candidate_id", .str s.semanticCandidateId),
    (py "selection_state", .str s.selectionState), (py "activation_state", .str s.activationState),
    (py "real_source_launch", .str s.realSourceLaunch),
    (py "processed_source_record_ids", .ofStrs s.processedSourceRecordIds),
    (py "last_stream_order_key", match s.lastStreamOrderKey with
      | none => .none
      | some key => .ofStrs [(ofLex key).1, (ofLex key).2]),
    (py "candidates", .list (s.candidates.map Candidate.toVal)),
    (py "tracklets", .list (s.tracklets.map Tracklet.toVal)),
    (py "object_assertions", .list (s.objectAssertions.map Assertion.toVal)),
    (py "match_decisions", .list (s.matchDecisions.map Decision.toVal)),
    (py "evidence_vectors", .list (s.evidenceVectors.map EvidenceVector.toVal)),
    (py "indexes", .ofRecord
      [(py "assertion_ids_by_scope", indexVal s.indexes.assertionIdsByScope),
        (py "open_tracklet_ids_by_scope", indexVal s.indexes.openTrackletIdsByScope)])]

/-- `_empty_result`. -/
def emptyResult (spec : CandidateSpec) : RuntimeState where
  schema := runtimeSchema
  runtimeBindingId := runtimeBinding
  objectPackCandidateId := spec.candidateId
  semanticCandidateId := spec.semanticCandidateId
  selectionState := py "UNSELECTED_RESEARCH_CANDIDATE"
  activationState := py "NONE"
  realSourceLaunch := py "NOT_AUTHORISED_BY_RUNTIME"
  processedSourceRecordIds := []
  lastStreamOrderKey := none
  candidates := []
  tracklets := []
  objectAssertions := []
  matchDecisions := []
  evidenceVectors := []
  indexes := ⟨[], []⟩
  checkpointSha256 := none

/-- `_validate_initial_state`. -/
def validateInitialState (state : RuntimeState) (spec : CandidateSpec) : Except Error Unit := do
  check (state.schema = runtimeSchema) (.runtime (py "RS0_RUNTIME_STATE_SCHEMA_INVALID"))
  check (state.runtimeBindingId = runtimeBinding) (.runtime (py "RS0_RUNTIME_BINDING_MISMATCH"))
  check (state.objectPackCandidateId = spec.candidateId)
    (.runtime (py "RS0_RUNTIME_OBJECTPACK_CANDIDATE_MISMATCH"))
  let checkpoint ← canonicalHash P (.ofRecord state.payload)
  check (state.checkpointSha256 = some checkpoint)
    (.runtime (py "RS0_RUNTIME_CHECKPOINT_HASH_MISMATCH"))

/-! ## Indexes -/

/-- `index.setdefault(key, []).append(object_id)`. -/
def addToIndex (index : Dict PyStr (List PyStr)) (key objectId : PyStr) :
    Dict PyStr (List PyStr) :=
  index.set key ((index.get? key).getD [] ++ [objectId])

/-- The sorted ids of the objects of each scope. -/
def indexByScope (objects : List (HardScope × PyStr)) :
    Except Error (Dict PyStr (List PyStr)) := do
  let index ← objects.foldlM (fun index object => do
    let key ← scopeKey P object.1
    return addToIndex index key object.2) []
  return (sortedBy Prod.fst index).map fun p => (p.1, sortedBy id p.2)

/-- `_rebuild_indexes`. -/
def rebuildIndexes (result : RuntimeState) : Except Error RuntimeState := do
  let assertionIdsByScope ← indexByScope P
    (result.objectAssertions.map fun a => (a.hardScope, a.objectAssertionId))
  let openTrackletIdsByScope ← indexByScope P
    ((result.tracklets.filter fun t => t.state = .opened).map fun t => (t.hardScope, t.trackletId))
  return { result with indexes := { assertionIdsByScope, openTrackletIdsByScope } }

/-- `{object_id: index for index, object_id in enumerate(ids)}`. -/
def positions (ids : List PyStr) : Dict PyStr Nat :=
  ids.zipIdx.foldl (fun d p => d.set p.1 p.2) []

/-- `objects[pos[object_id]]`. -/
def objectAt {α : Type} (pos : Dict PyStr Nat) (objects : List α) (objectId : PyStr) :
    Except Error α :=
  match pos.get? objectId with
  | none => .error (.python .keyError)
  | some position =>
    match objects[position]? with
    | none => .error (.python .indexError)
    | some object => .ok object

/-- The object of an id is replaced; the id was looked up before. -/
def modifyAt {α : Type} (pos : Dict PyStr Nat) (objectId : PyStr) (f : α → α) (objects : List α) :
    List α :=
  match pos.get? objectId with
  | none => objects
  | some position => objects.modify position f

/-! ## One row -/

/-- What stays the same while the rows are visited. -/
structure Context where
  spec : CandidateSpec
  registry : Record
  discontinuities : List PyStr
  terminalBreaks : List PyStr

/-- The variables of the loop over the rows. -/
structure Loop where
  result : RuntimeState
  trackletPos : Dict PyStr Nat
  assertionPos : Dict PyStr Nat
  seen : List PyStr
  lastKey : Option (PyStr ×ₗ PyStr)

/-- A row with its candidate. -/
structure Row where
  material : Material
  candidate : Candidate
  isDiscontinuity : Bool
  isTerminalBreak : Bool

/-- The order key of the stream. -/
def streamKey (material : Material) : PyStr ×ₗ PyStr := toLex material.orderKey

variable (context : Context)

/-- The evidence of a row about the subjects of one kind. -/
def evidence (row : Row) (kind : SubjectKind) (latest : PyStr → Except Error Material)
    (subjectIds : List PyStr) : Except Error (List EvidenceVector) :=
  subjectIds.mapM fun subjectId => do
    let previous ← latest subjectId
    let pair ← evaluatePair P context.spec.semanticCandidateId previous row.material
      context.registry row.isTerminalBreak row.isDiscontinuity
    evidenceVector P row.candidate kind subjectId pair

/-- The subjects whose pair is supported. -/
def eligible (vectors : List EvidenceVector) : List PyStr :=
  (vectors.filter fun v => v.pair.sameObjectPairSupported).map (·.subjectId)

/-- The row is flagged as a discontinuity or a terminal break. -/
def Row.broken (row : Row) : Bool := row.isDiscontinuity || row.isTerminalBreak

/-- Why a flagged row closes the open tracklets. -/
def Row.breakReason (row : Row) : PyStr :=
  py (if row.isDiscontinuity then "RS0_EXPLICIT_SOURCE_DISCONTINUITY"
    else "RS0_PRIOR_TERMINAL_BREAK")

/-- Tracklets are closed, one after the other. -/
def closeAll (pos : Dict PyStr Nat) (state : TrackletState) (reason : PyStr)
    (trackletIds : List PyStr) (tracklets : List Tracklet) : List Tracklet :=
  trackletIds.foldl (fun ts trackletId => modifyAt pos trackletId (·.close state reason) ts)
    tracklets

namespace Loop

variable (loop : Loop)

/-- A candidate is appended. -/
def pushCandidate (candidate : Candidate) : Loop :=
  { loop with result := { loop.result with
      candidates := loop.result.candidates ++ [candidate] } }

/-- Evidence vectors are appended. -/
def pushEvidence (vectors : List EvidenceVector) : Loop :=
  { loop with result := { loop.result with
      evidenceVectors := loop.result.evidenceVectors ++ vectors } }

/-- A decision is appended. -/
def pushDecision (decision : Decision) : Loop :=
  { loop with result := { loop.result with
      matchDecisions := loop.result.matchDecisions ++ [decision] } }

/-- A tracklet is appended and found by its id. -/
def pushTracklet (tracklet : Tracklet) : Loop :=
  { loop with
    result := { loop.result with tracklets := loop.result.tracklets ++ [tracklet] }
    trackletPos := loop.trackletPos.set tracklet.trackletId loop.result.tracklets.length }

/-- An assertion is appended and found by its id. -/
def pushAssertion (assertion : Assertion) : Loop :=
  { loop with
    result := { loop.result with objectAssertions := loop.result.objectAssertions ++ [assertion] }
    assertionPos := loop.assertionPos.set assertion.objectAssertionId
      loop.result.objectAssertions.length }

/-- The tracklet of an id is replaced. -/
def putTracklet (trackletId : PyStr) (tracklet : Tracklet) : Loop :=
  { loop with result := { loop.result with
      tracklets := modifyAt loop.trackletPos trackletId (fun _ => tracklet)
        loop.result.tracklets } }

/-- The assertion of an id is updated with a row. -/
def update (assertionId : PyStr) (row : Row) : Loop :=
  { loop with result := { loop.result with
      objectAssertions := modifyAt loop.assertionPos assertionId
        (fun a => updateAssertion a row.candidate row.material) loop.result.objectAssertions } }

/-- Tracklets are closed. -/
def close (state : TrackletState) (reason : PyStr) (trackletIds : List PyStr) : Loop :=
  { loop with result := { loop.result with
      tracklets := closeAll loop.trackletPos state reason trackletIds loop.result.tracklets } }

/-- A flagged row censors the open tracklets of its scope. -/
def censor (row : Row) (openIds : List PyStr) : Loop :=
  if row.broken then loop.close .censored row.breakReason openIds else loop

end Loop

/-- A row whose candidate belongs to no assertion. -/
def matchTracklets (loop : Loop) (row : Row) (openIds : List PyStr)
    (assertionVectors : List EvidenceVector) : Except Error Loop := do
  let vectors ← evidence P context row .tracklet
    (fun id => (objectAt loop.trackletPos loop.result.tracklets id).map (·.latestMaterial)) openIds
  let loop := (loop.pushEvidence vectors).censor row openIds
  let vectors' := assertionVectors ++ vectors
  match if row.broken then [] else eligible vectors with
  | [] =>
    let tracklet ← openTracklet P row.candidate row.material
    let decision ← decision P row.candidate .newTracklet [] [] vectors' (some tracklet.trackletId)
    return (loop.pushTracklet tracklet).pushDecision decision
  | [trackletId] =>
    let tracklet ← objectAt loop.trackletPos loop.result.tracklets trackletId
    let updated ← appendTracklet tracklet row.candidate row.material
    let loop := loop.putTracklet trackletId updated
    if updated.state = .confirmed then
      let assertion ← createAssertion P updated
      let decision ← decision P row.candidate .genesis [] [trackletId] vectors'
        (some assertion.objectAssertionId)
      return (loop.pushAssertion assertion).pushDecision decision
    else
      let decision ← decision P row.candidate .trackletUpdate [] [trackletId] vectors'
        (some trackletId)
      return loop.pushDecision decision
  | trackletIds =>
    let loop := loop.close .ambiguous (py "RS0_EQUAL_LAWFUL_TRACKLET_COMPETITOR") trackletIds
    let decision ← decision P row.candidate .ambiguous [] trackletIds vectors' none
    return loop.pushDecision decision

/-- A row is matched with the assertions of its scope, then with the open tracklets. -/
def matchRow (loop : Loop) (row : Row) : Except Error Loop := do
  let scope ← scopeKey P row.candidate.hardScope
  let indexes := loop.result.indexes
  let vectors ← evidence P context row .objectAssertion
    (fun id => (objectAt loop.assertionPos loop.result.objectAssertions id).map (·.latestMaterial))
    ((indexes.assertionIdsByScope.get? scope).getD [])
  let loop := (loop.pushCandidate row.candidate).pushEvidence vectors
  match eligible vectors with
  | [] =>
    matchTracklets P context loop row
      ((indexes.openTrackletIdsByScope.get? scope).getD []) vectors
  | [assertionId] =>
    let decision ← decision P row.candidate .update [assertionId] [] vectors (some assertionId)
    return (loop.update assertionId row).pushDecision decision
  | assertionIds =>
    let decision ← decision P row.candidate .ambiguous assertionIds [] vectors none
    return loop.pushDecision decision

/-- The row of a material. -/
def rowOf (material : Material) (candidate : Candidate) : Row where
  material := material
  candidate := candidate
  isDiscontinuity := decide (material.sourceRecordId ∈ context.discontinuities)
  isTerminalBreak := decide (material.sourceRecordId ∈ context.terminalBreaks)

/-- The body of the loop over the rows. -/
def processRow (loop : Loop) (material : Material) : Except Error Loop := do
  let sourceId := material.sourceRecordId
  check (sourceId ∉ loop.seen)
    (.runtime (py "RS0_RUNTIME_DUPLICATE_SOURCE_RECORD:" ++ sourceId))
  check (∀ key ∈ loop.lastKey, key < streamKey material)
    (.runtime (py "RS0_RUNTIME_NONMONOTONIC_RESTART_STREAM"))
  let candidate ← candidateRecord P context.spec material
  let matched ← matchRow P context loop (rowOf context material candidate)
  let result ← rebuildIndexes P { matched.result with
    processedSourceRecordIds := matched.result.processedSourceRecordIds ++ [sourceId]
    lastStreamOrderKey := some (streamKey material) }
  return { matched with
    result, seen := loop.seen ++ [sourceId], lastKey := some (streamKey material) }

/-! ## A run -/

/-- The variables of the loop before the first row. -/
def startLoop (initial : RuntimeState) : Except Error Loop := do
  let result ← rebuildIndexes P initial
  return {
    result, trackletPos := positions (initial.tracklets.map (·.trackletId))
    assertionPos := positions (initial.objectAssertions.map (·.objectAssertionId))
    seen := initial.processedSourceRecordIds, lastKey := initial.lastStreamOrderKey }

/-- The state with its checkpoint. -/
def checkpointed (result : RuntimeState) : Except Error RuntimeState := do
  let checkpoint ← canonicalHash P (.ofRecord result.payload)
  return { result with checkpointSha256 := some checkpoint }

/-- The state that a run starts from. -/
def initialResult (spec : CandidateSpec) : Option RuntimeState → Except Error RuntimeState
  | none => .ok (emptyResult spec)
  | some state => do
    validateInitialState P state spec
    return { state with checkpointSha256 := none }

/-- `run_empirical_runtime`. -/
def runEmpiricalRuntime (rows : List Record) (initialState : Option RuntimeState) :
    Except Error RuntimeState := do
  check (context.spec.activationEligible = .bool false)
    (.runtime (py "RS0_RUNTIME_ACTIVATION_FORBIDDEN"))
  check (py "-v2" <:+ context.spec.semanticCandidateId)
    (.runtime (py "RS0_RUNTIME_SEMANTIC_PROFILE_INVALID"))
  let initial ← initialResult P context.spec initialState
  let normalized ← rows.mapM (normalizeCandidateSourceRow P)
  let start ← startLoop P initial
  let final ← (sortedBy streamKey normalized).foldlM (processRow P context) start
  checkpointed P final.result

end OvcReplay.C2p.Rs0
