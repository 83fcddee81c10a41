import OvcReplay.C2Vnext.Clock

/-! # Reference levels of C2 vNext

`levels.py`: the projection of the lifecycle of levels and the selector that reads it. -/

namespace OvcReplay.C2Vnext

open Python

namespace Level

/-- `LEVEL_FAMILIES`. -/
def families : List PyStr :=
  [py "WINDOW_BOUNDARY", py "CONFIRMED_PIVOT", py "DERIVED_REFERENCE", py "CONTEXT_REFERENCE",
    py "CONTAINER_BOUNDARY_REFERENCE"]

/-- `LEVEL_TYPES`. -/
def types : List PyStr :=
  [py "TRAILING_RANGE_HIGH", py "TRAILING_RANGE_LOW", py "TRAILING_RANGE_MIDPOINT",
    py "CONFIRMED_SWING_HIGH", py "CONFIRMED_SWING_LOW", py "LINKED_PARENT_LEVEL",
    py "CONTAINER_UPPER_POINTER", py "CONTAINER_LOWER_POINTER", py "CONTAINER_CENTRE_POINTER"]

/-- `LIFECYCLE_EVENTS`. -/
inductive EventType where
  | defined
  | refreshed
  | superseded
  | staleForConsumer
  | retiredForConsumer
  | invalidatedSource
  deriving DecidableEq, Repr

/-- The states of a projected level. -/
inductive State where
  | available
  | superseded
  | retiredForConsumer
  | invalidatedSource
  deriving DecidableEq, Repr

/-- `SELECTOR_REASONS` for exclusions. -/
inductive Exclusion where
  | excludedFamily
  | excludedType
  | notFirstValidAsOf
  | consumerStale
  | lifecycleUnavailable
  deriving DecidableEq, Repr

/-- The text of a reason. -/
def Exclusion.text : Exclusion → PyStr
  | excludedFamily => py "EXCLUDED_FAMILY"
  | excludedType => py "EXCLUDED_TYPE"
  | notFirstValidAsOf => py "NOT_FIRST_VALID_AS_OF"
  | consumerStale => py "CONSUMER_STALE"
  | lifecycleUnavailable => py "LIFECYCLE_UNAVAILABLE"

end Level

/-- The definition of a level: what its lifecycle and selection read. -/
structure Level where
  levelId : PyStr
  family : PyStr
  levelType : PyStr
  firstValidTime : PyStr

namespace Level

/-- A lifecycle event. -/
structure LifecycleEvent where
  lifecycleEventId : PyStr
  levelId : PyStr
  eventType : EventType
  eventTime : PyStr
  consumerId : Option PyStr
  supersedingLevelId : Option PyStr
  deriving DecidableEq

/-- A level as its lifecycle leaves it. -/
structure Projected where
  levelId : PyStr
  definition : Level
  state : State
  staleForConsumer : Bool
  supersededBy : Option PyStr
  asOfTime : PyStr
  consumerId : Option PyStr

/-- `_require`. -/
def require (condition : Prop) [Decidable condition] (marker : PyStr) : Except Error Unit :=
  check condition (.level marker)

variable (P : Platform)

/-- `parse_time`. -/
def parse (s : PyStr) : Except Error Instant := parseTime P (.level (py "TIMEZONE_REQUIRED")) s

/-! ## The lifecycle -/

/-- The variables of the loop over the events of a level. -/
structure Status where
  state : State
  stale : Bool
  supersededBy : Option PyStr

namespace Status

/-- The status before the first event. -/
def init : Status := ⟨.available, false, none⟩

/-- One event of the level. -/
def apply (consumerId : Option PyStr) (status : Status) (event : LifecycleEvent) : Status :=
  match event.eventType with
  | .invalidatedSource => { status with state := .invalidatedSource }
  | .superseded => { status with state := .superseded, supersededBy := event.supersedingLevelId }
  | .retiredForConsumer =>
    if event.consumerId = consumerId then { status with state := .retiredForConsumer } else status
  | .staleForConsumer =>
    if event.consumerId = consumerId then { status with stale := true } else status
  | .defined => status
  | .refreshed => status

end Status

/-- The events at or before an instant. -/
def eventsUpTo (asOf : Instant) (events : List LifecycleEvent) :
    Except Error (List LifecycleEvent) := do
  let times ← events.mapM fun event => parse P event.eventTime
  return ((events.zip times).filter fun p => p.2 ≤ asOf).map Prod.fst

variable (upTo : List LifecycleEvent)

/-- The events of a level in the order they are applied: by the text of their time, then by id. -/
def eventsOf (levelId : PyStr) : List LifecycleEvent :=
  sortedBy (fun event => toLex (event.eventTime, event.lifecycleEventId))
    (upTo.filter fun event => event.levelId = levelId)

/-- The status of a level. -/
def statusOf (consumerId : Option PyStr) (levelId : PyStr) : Status :=
  (eventsOf upTo levelId).foldl (Status.apply consumerId) .init

/-- A level of the projection. -/
def projected (asOf : Instant) (consumerId : Option PyStr) (level : Level) : Projected :=
  let status := statusOf upTo consumerId level.levelId
  { levelId := level.levelId, definition := level, state := status.state
    staleForConsumer := status.stale, supersededBy := status.supersededBy
    asOfTime := iso P asOf, consumerId }

/-- `project_lifecycle`. -/
def projectLifecycle (levels : List Level) (events : List LifecycleEvent) (asOfTime : PyStr)
    (consumerId : Option PyStr) : Except Error (List Projected) := do
  let asOf ← parse P asOfTime
  let upTo ← eventsUpTo P asOf events
  let times ← levels.mapM fun level => parse P level.firstValidTime
  let valid := ((levels.zip times).filter fun p => p.2 ≤ asOf).map Prod.fst
  return sortedBy (fun item => toLex (item.definition.firstValidTime, item.levelId))
    (valid.map (projected P upTo asOf consumerId))

/-! ## The selector -/

/-- The result of a selector. -/
structure Selection where
  selectorResultId : PyStr
  selectorId : PyStr
  asOfTime : PyStr
  candidateIds : List PyStr
  eligibleIds : List PyStr
  exclusions : List (PyStr × Exclusion)
  tieIds : List PyStr
  selectedLevelId : Option PyStr
  reason : PyStr

/-- The reason to exclude a level, if there is one. -/
def exclusion (allowedFamilies allowedTypes : List PyStr) (asOf : Instant)
    (lifecycleById : Dict PyStr Projected) (level : Level) : Except Error (Option Exclusion) :=
  if level.family ∉ allowedFamilies then .ok (some .excludedFamily)
  else if level.levelType ∉ allowedTypes then .ok (some .excludedType)
  else do
    let firstValid ← parse P level.firstValidTime
    if asOf < firstValid then return some .notFirstValidAsOf
    else
      match Dict.get? lifecycleById level.levelId with
      | none => return none
      | some item =>
        if item.state ∉ [State.available, State.superseded] then
          return some .lifecycleUnavailable
        else if item.staleForConsumer then return some .consumerStale
        else return none

/-- `a or b` of lists. -/
def listOr (xs ys : List PyStr) : List PyStr := if xs = [] then ys else xs

/-- The dictionary the id of a result is the hash of. -/
def Selection.body (s : Selection) : Record :=
  [(py "selector_id", .str s.selectorId), (py "selector_version", .str (py "r1")),
    (py "active", .bool false), (py "canonical", .bool false), (py "as_of_time", .str s.asOfTime),
    (py "candidate_ids", .ofStrs s.candidateIds), (py "eligible_ids", .ofStrs s.eligibleIds),
    (py "exclusions", .list (s.exclusions.map fun p =>
      .ofRecord [(py "level_id", .str p.1), (py "reason", .str p.2.text)])),
    (py "tie_ids", .ofStrs s.tieIds), (py "selected_level_id", .ofStr? s.selectedLevelId),
    (py "reason", .str s.reason), (py "fallback_level_id", .none),
    (py "authority", .str (py "SHADOW_SELECTOR_EVIDENCE_ONLY"))]

/-- The ids tied for the latest first valid time. -/
def tiesOf (eligible : List Level) (times : List Instant) : List PyStr :=
  match times.max? with
  | none => []
  | some latest =>
    sortedBy id (((eligible.zip times).filter fun p => p.2 = latest).map fun p => p.1.levelId)

/-- `evaluate_selector`. -/
def evaluateSelector (levels : List Level) (selectorId asOfTime : PyStr)
    (allowedFamilies allowedTypes : List PyStr) (lifecycleProjection : List Projected) :
    Except Error Selection := do
  require (py "SELECTOR.C2.LEVEL." <+: selectorId) (py "SELECTOR_ID")
  let lifecycleById := Dict.ofItems (lifecycleProjection.map fun item => (item.levelId, item))
  let asOf ← parse P asOfTime
  let reasons ← levels.mapM (exclusion P (listOr allowedFamilies families)
    (listOr allowedTypes types) asOf lifecycleById)
  let eligible := ((levels.zip reasons).filter fun p => p.2.isNone).map Prod.fst
  let excluded := (levels.zip reasons).filterMap fun p => p.2.map fun r => (p.1.levelId, r)
  let times ← eligible.mapM fun level => parse P level.firstValidTime
  let ties := tiesOf eligible times
  let selected := match ties with
    | [levelId] => some levelId
    | _ => none
  let reason := match ties with
    | [] => py "NO_ELIGIBLE_CANDIDATE"
    | [_] => py "SELECTED_UNIQUE"
    | _ => py "TIED_CANDIDATES"
  let result : Selection :=
    { selectorResultId := [], selectorId, asOfTime := iso P asOf
      candidateIds := sortedBy id (levels.map (·.levelId))
      eligibleIds := sortedBy id (eligible.map (·.levelId))
      exclusions := sortedBy (fun p => toLex (p.2.text, p.1)) excluded
      tieIds := ties, selectedLevelId := selected, reason }
  let resultId ← digest P "C2.LEVEL.SELECTOR.RESULT" (.ofRecord result.body)
  return { result with selectorResultId := resultId }

end Level

end OvcReplay.C2Vnext
