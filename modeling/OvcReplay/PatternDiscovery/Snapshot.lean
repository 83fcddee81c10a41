import OvcReplay.Json.Dumps

/-! # Snapshots of Pattern Discovery

`models.py`: the C2 snapshot that candidate windows are built from, read from a mapping or given as
it is, the key of its source binding and the state of its quality axis. -/

namespace OvcReplay.PatternDiscovery

open Python Json

/-- The exceptions of the module, with their messages. -/
inductive WindowError where
  /-- `PatternDiscoveryError`. -/
  | discovery (message : PyStr)
  /-- `ChronologyError`. -/
  | chronology (message : PyStr)
  /-- `SourceBindingError`. -/
  | sourceBinding (message : PyStr)
  | python (e : PyError)
  deriving DecidableEq, Repr

/-- `AXES`. -/
def axisNames : List PyStr :=
  [py "LOCATION", py "MOTION", py "ORGANISATION", py "INTERACTION", py "QUALITY"]

/-- `CLOCKS`. -/
def clocks : List PyStr := [py "15M", py "2H_A_L"]

/-- `PRICE_SIDES`. -/
def priceSides : List PyStr := [py "BID", py "ASK"]

/-- `C2Snapshot`. -/
structure C2Snapshot where
  c2StateId : PyStr
  c2ReleaseId : PyStr
  c2ManifestId : PyStr
  firstValidTime : PyStr
  clock : PyStr
  side : PyStr
  evaluationScopeId : PyStr
  parameterPackId : PyStr
  axes : Record
  relationSetId : PyStr
  levelIds : List PyStr
  containerIds : List PyStr
  parentContainerId : PyStr
  boundaryOrRelationId : PyStr
  authorityState : PyStr
  selectorId : PyStr
  gapBefore : Bool
  deriving DecidableEq

section

variable (P : Platform)

/-- `parse_utc`, up to the instant of the time. -/
def parseUtc (value : PyStr) : Except WindowError Int :=
  if value.getLast? = some (.ofChar 'Z') then
    match P.fromIsoFormat (value.dropLast ++ py "+00:00") with
    | none => .error (.chronology (py "invalid UTC timestamp: " ++ value))
    | some d =>
      if d.utcOffset = some 0 then .ok d.instant
      else .error (.chronology (py "timestamp must resolve to UTC"))
  else .error (.chronology (py "timestamp must be an ISO-8601 UTC string ending in Z"))

/-- `_required_text`. -/
def requiredText (source : Record) (key : PyStr) : Except WindowError PyStr :=
  match source.get? key with
  | some (.str s) =>
    if strip s ≠ [] then .ok s
    else .error (.discovery (key ++ py " must be a non-empty string"))
  | _ => .error (.discovery (key ++ py " must be a non-empty string"))

/-- `v or default`, for a value that was got from a mapping. -/
def orElse (v : Option PyVal) (default : PyVal) : PyVal :=
  match v with
  | some v => if v.truthy then v else default
  | none => default

/-- `str(v)`. -/
def textOf (v : PyVal) : Except WindowError PyStr := (v.strOf P).mapError .python

/-- `[str(item) for item in v]`. -/
def textsOf (v : PyVal) : Except WindowError (List PyStr) := (v.eachText P).mapError .python

/-- `['LOCATION', 'MOTION']`. -/
def listText (names : List PyStr) : PyStr :=
  py "[" ++ (py ", ").intercalate (names.map fun name => py "'" ++ name ++ py "'") ++ py "]"

/-- A round of the loop over the axes. -/
def normalizedAxis (axes : PyVal) (axis : PyStr) : Except WindowError (PyStr × PyVal) :=
  match axes.get? axis with
  | some (.dict items) =>
    match (PyVal.dict items).get? (py "status") with
    | some (.str status) =>
      if status ≠ [] then .ok (axis, .dict items)
      else .error (.discovery (py "axis " ++ axis ++ py " requires status"))
    | _ => .error (.discovery (py "axis " ++ axis ++ py " requires status"))
  | _ => .error (.discovery (py "axis " ++ axis ++ py " must be an object"))

/-- `C2Snapshot.from_mapping`. -/
def C2Snapshot.fromMapping (source : Record) : Except WindowError C2Snapshot := do
  let clock ← requiredText source (py "clock")
  let side ← requiredText source (py "side")
  check (clock ∈ clocks) (.discovery (py "unsupported clock: " ++ clock))
  check (side ∈ priceSides) (.discovery (py "unsupported price side: " ++ side))
  let firstValidTime ← requiredText source (py "first_valid_time")
  let _ ← parseUtc P firstValidTime
  let axes := (source.get? (py "axes")).getD .none
  check (axes.isMapping = true) (.discovery (py "axes must be an object"))
  let missingAxes := axisNames.filter fun axis => (axes.get? axis).isNone
  check (missingAxes = []) (.discovery (py "missing C2 axes: " ++ listText missingAxes))
  let normalizedAxes ← axisNames.mapM (normalizedAxis axes)
  let levelIds ← textsOf P ((source.get? (py "level_ids")).getD (.tuple []))
  let containerIds ← textsOf P ((source.get? (py "container_ids")).getD (.tuple []))
  let c2StateId ← requiredText source (py "c2_state_id")
  let c2ReleaseId ← requiredText source (py "c2_release_id")
  let c2ManifestId ← requiredText source (py "c2_manifest_id")
  let evaluationScopeId ← requiredText source (py "evaluation_scope_id")
  let parameterPackId ← requiredText source (py "parameter_pack_id")
  let relationSetId ← requiredText source (py "relation_set_id")
  let parentContainerId ←
    textOf P (orElse (source.get? (py "parent_container_id")) (.str (py "UNRESOLVED")))
  let boundaryOrRelationId ←
    textOf P (orElse (source.get? (py "boundary_or_relation_id")) (.str relationSetId))
  let authorityState ←
    textOf P (orElse (source.get? (py "authority_state")) (.str (py "FIXTURE")))
  let selectorId ←
    textOf P (orElse (source.get? (py "selector_id")) (.str (py "FIXTURE_SELECTOR")))
  return { c2StateId, c2ReleaseId, c2ManifestId, firstValidTime, clock, side, evaluationScopeId,
           parameterPackId, axes := normalizedAxes, relationSetId,
           levelIds := sortedBy id levelIds, containerIds := sortedBy id containerIds,
           parentContainerId, boundaryOrRelationId, authorityState, selectorId,
           gapBefore := ((source.get? (py "gap_before")).getD (.bool false)).truthy }

/-- `C2Snapshot.binding_key`. -/
def C2Snapshot.bindingKey (snapshot : C2Snapshot) : List PyStr :=
  [snapshot.c2ReleaseId, snapshot.c2ManifestId, snapshot.clock, snapshot.side,
    snapshot.evaluationScopeId, snapshot.parameterPackId, snapshot.selectorId]

/-- `C2Snapshot.quality_state`. -/
def C2Snapshot.qualityState (snapshot : C2Snapshot) : Except WindowError PyStr :=
  match snapshot.axes.get? (py "QUALITY") with
  | none => .error (.python .keyError)
  | some (.dict items) =>
    let payload := PyVal.dict items
    let value := (payload.get? (py "value")).getD .none
    textOf P (if value ≠ .none then value else (payload.get? (py "status")).getD .none)
  | some _ => .error (.python .attributeError)

/-- The tree-and-bytes hash of `canonical.py`: sorted keys, no newline behind. -/
def canonicalSha256 (v : PyVal) : Except WindowError PyStr := do
  let tree ← (dumps P v).mapError .python
  let encoded ← (encodeUtf8 tree.render).mapError .python
  return (P.sha256 encoded).text

end

/-- `Mapping[str, Any] | C2Snapshot`. -/
inductive SnapshotRecord where
  | snapshot (s : C2Snapshot)
  | mapping (source : Record)

/-- The snapshot, read from the mapping if it is one. -/
def SnapshotRecord.read (P : Platform) : SnapshotRecord → Except WindowError C2Snapshot
  | .snapshot s => .ok s
  | .mapping source => C2Snapshot.fromMapping P source

end OvcReplay.PatternDiscovery
