import OvcReplay.C2p.Events

/-! # Snapshots of C2P v0.2

`projection.py`: the events of an assertion are put in order, checked, and folded into the state of
the assertion, of which the snapshot is a record. -/

namespace OvcReplay.C2p

open Python Json

variable (P : Platform)

/-! ## `dict(v)` and `list(v)` -/

/-- The elements a loop over `v` visits; the keys of the mappings in an event are texts. -/
def iterate : PyVal → Except PyError (List PyVal)
  | .list xs => .ok xs
  | .tuple xs => .ok xs
  | .set xs => .ok xs
  | .str s => .ok (s.map fun c => .str [c])
  | .dict items => items.mapM fun p =>
      match p.1 with
      | .str key => .ok (.str key)
      | _ => .error .typeError
  | _ => .error .typeError

/-- A value as the key of a dictionary. -/
def keyOf : PyVal → Except PyError PyKey
  | .str s => .ok (.str s)
  | .none => .ok .none
  | .bool b => .ok (.bool b)
  | .int z => .ok (.int z)
  | v => if v.hashable = true then (v.strOf P).map .other else .error .typeError

/-- The item that an element of `dict(v)` stands for. -/
def itemOf (v : PyVal) : Except PyError (PyKey × PyVal) := do
  match ← iterate v with
  | [key, value] => return (← keyOf P key, value)
  | _ => .error .valueError

/-- `dict(v)`, of a mapping or of pairs. -/
def dictOf : PyVal → Except PyError (Dict PyKey PyVal)
  | .dict items => .ok items
  | v => do
    let elements ← iterate v
    let items ← elements.mapM (itemOf P)
    return Dict.ofItems items

/-! ## The axes of a snapshot -/

/-- `LIFECYCLE_STATES`. -/
def lifecycleStates : List String := ["ACTIVE", "DORMANT", "RETIRED", "SUPERSEDED"]

/-- `OBSERVABILITY_STATES`. -/
def observabilityStates : List String :=
  ["OBSERVED", "NOT_OBSERVED", "CENSORED", "SOURCE_UNAVAILABLE"]

/-- `EVALUATION_STATES`. -/
def evaluationStates : List String :=
  ["AVAILABLE", "ABSENT", "MISSING", "NOT_EVALUABLE", "AMBIGUOUS", "CONFLICT", "QUARANTINED"]

/-- `_validate_axis`; a value that cannot be hashed raises. -/
def validateAxis (value : PyVal) (allowed : List String) (field : String) :
    Except Error PyStr :=
  match value with
  | .str s =>
    if s ∈ allowed.map py then .ok s
    else .error (.projection (py "C2P_SNAPSHOT_AXIS_INVALID:" ++ py field ++ py ":" ++ s))
  | v =>
    if v.hashable = true then do
      let text ← (v.strOf P).mapError .python
      .error (.projection (py "C2P_SNAPSHOT_AXIS_INVALID:" ++ py field ++ py ":" ++ text))
    else .error (.python .typeError)

/-- `_later_time`. -/
def laterTime (left right : PyStr) : Except Error PyStr := do
  let r ← parseUtcZ P right
  let l ← parseUtcZ P left
  return if l < r then right else left

/-! ## The ordered stream -/

variable (events : List Event)

/-- The events by their positions. -/
def sortedEvents : List Event :=
  sortedBy (fun event => toLex (event.sequenceNo, event.eventId)) events

/-- The loop of `_ordered_stream`: each event is valid, in its place and bound to the one before. -/
def checkOrder (expected : Nat) (prior : Option Event) : List Event → Except Error Unit
  | [] => .ok ()
  | event :: events => do
    validateEventRecord P event
    check (event.sequenceNo = expected) (.projection (py "C2P_SNAPSHOT_SEQUENCE_GAP"))
    let expectedPrior ← prior.mapM (eventRecordHash P)
    check (event.priorEventHash = expectedPrior)
      (.projection (py "C2P_SNAPSHOT_PRIOR_HASH_MISMATCH"))
    checkOrder (expected + 1) (some event) events

/-- `_ordered_stream`. -/
def orderedStream : Except Error (List Event) := do
  let ordered := sortedEvents events
  check (ordered ≠ []) (.projection (py "C2P_SNAPSHOT_EMPTY_STREAM"))
  check ((ordered.map Event.streamId).dedup.length = 1)
    (.projection (py "C2P_SNAPSHOT_MULTI_STREAM"))
  checkOrder P 0 none ordered
  return ordered

/-! ## The fold over the events -/

/-- `lifecycle`. -/
inductive Lifecycle where
  | active
  | dormant
  | retired
  | superseded
  deriving DecidableEq, Repr

/-- The text of a lifecycle state. -/
def Lifecycle.text : Lifecycle → String
  | active => "ACTIVE"
  | dormant => "DORMANT"
  | retired => "RETIRED"
  | superseded => "SUPERSEDED"

/-- The local variables of the loop of `project_assertion_stream`. -/
structure AssertionState where
  geometry : Dict PyKey PyVal
  statePayload : Dict PyKey PyVal
  lifecycle : Lifecycle
  observability : PyStr
  evaluation : PyStr
  marketEffectiveStart : PyStr
  marketEffectiveEnd : Option PyStr
  firstValidTime : PyStr
  evaluationCutoff : PyStr
  deriving DecidableEq

/-- `dict(payload.get(field, default))`; `none` when the field is absent. -/
def dictField (payload : Record) (field : String) : Except Error (Option (Dict PyKey PyVal)) :=
  (payload.get? (py field)).mapM fun v => (dictOf P v).mapError .python

/-- The axis that the field sets; `none` when the field is absent. -/
def axisField (payload : Record) (field : String) (allowed : List String) :
    Except Error (Option PyStr) :=
  (payload.get? (py field)).mapM fun v => validateAxis P v allowed field

/-- The state that the genesis event sets; a valid genesis is `ACTIVE`. -/
def genesisState (first : Event) : Except Error AssertionState := do
  let geometry ← dictField P first.payload "geometry"
  let statePayload ← dictField P first.payload "state_payload"
  let _ ← axisField P first.payload "lifecycle_state" lifecycleStates
  let observability ← axisField P first.payload "observability_state" observabilityStates
  let evaluation ← axisField P first.payload "evaluation_state" evaluationStates
  return { geometry := geometry.getD []
           statePayload := statePayload.getD []
           lifecycle := .active
           observability := observability.getD (py "OBSERVED")
           evaluation := evaluation.getD (py "AVAILABLE")
           marketEffectiveStart := first.marketEffectiveStart
           marketEffectiveEnd := first.marketEffectiveEnd
           firstValidTime := first.firstValidTime
           evaluationCutoff := first.evaluationCutoff }

/-- The key of the genealogy in a state payload. -/
def genealogyKey : PyKey := .str (py "genealogy_event_ids")

/-- The text of an id that is sorted with others. -/
def textElement : PyVal → Except PyError PyStr
  | .str s => .ok s
  | _ => .error .typeError

/-- `list(state_payload.get("genealogy_event_ids", []))`, whose elements are sorted with texts. -/
def listedIds (v : Option PyVal) : Except PyError (List PyStr) := do
  let elements ← iterate (v.getD (.list []))
  elements.mapM textElement

variable (s : AssertionState)

variable (event : Event)

/-- The branch of `ASSERTION_UPDATED`. -/
def applyUpdate : Except Error AssertionState := do
  check (py "lifecycle_state" ∉ event.payload.keys)
    (.projection (py "C2P_UPDATE_CANNOT_SET_LIFECYCLE"))
  let geometry ← dictField P event.payload "geometry"
  let statePayload ← dictField P event.payload "state_payload"
  let observability ← axisField P event.payload "observability_state" observabilityStates
  let evaluation ← axisField P event.payload "evaluation_state" evaluationStates
  return { s with
    geometry := geometry.getD s.geometry
    statePayload := statePayload.getD s.statePayload
    observability := observability.getD s.observability
    evaluation := evaluation.getD s.evaluation
    marketEffectiveStart := event.marketEffectiveStart
    marketEffectiveEnd := event.marketEffectiveEnd }

/-- The branch of `CENSORED_AT_RUN_END`. -/
def applyCensoring : Except Error AssertionState := do
  check (py "lifecycle_state" ∉ event.payload.keys)
    (.projection (py "C2P_CENSORING_CANNOT_MUTATE_LIFECYCLE"))
  let evaluation ← axisField P event.payload "evaluation_state" evaluationStates
  return { s with
    observability := py "CENSORED"
    evaluation := evaluation.getD s.evaluation }

/-- The branch of `SPLIT`, `MERGE` and `RECURRENCE_LINKED`. -/
def applyGenealogy : Except Error AssertionState := do
  let listed ← (listedIds (s.statePayload.get? genealogyKey)).mapError Error.python
  return { s with
    statePayload := s.statePayload.set genealogyKey
      (.ofStrs (sortedSet (listed ++ [event.eventId]))) }

/-- What an event does to the state, by its type. -/
def applyType : Except Error AssertionState :=
  match event.eventType with
  | .assertionGenesis => .error (.projection (py "C2P_SNAPSHOT_DUPLICATE_GENESIS"))
  | .assertionUpdated => applyUpdate P s event
  | .censoredAtRunEnd => applyCensoring P s event
  | .enterDormant => do
    check (s.lifecycle = .active) (.projection (py "C2P_ENTER_DORMANT_ILLEGAL"))
    return { s with lifecycle := .dormant }
  | .reappeared => do
    check (s.lifecycle = .dormant) (.projection (py "C2P_REAPPEARANCE_ILLEGAL"))
    return { s with lifecycle := .active }
  | .retired => do
    check (s.lifecycle = .active ∨ s.lifecycle = .dormant)
      (.projection (py "C2P_RETIREMENT_ILLEGAL"))
    return { s with lifecycle := .retired, marketEffectiveEnd := event.marketEffectiveEnd }
  | .superseded => do
    check (s.lifecycle = .active ∨ s.lifecycle = .dormant)
      (.projection (py "C2P_SUPERSESSION_ILLEGAL"))
    return { s with lifecycle := .superseded, marketEffectiveEnd := event.marketEffectiveEnd }
  | .split => applyGenealogy s event
  | .merge => applyGenealogy s event
  | .recurrenceLinked => applyGenealogy s event
  | type =>
    .error (.projection (py "C2P_SNAPSHOT_EVENT_TYPE_INVALID:" ++ py type.text))

/-- One turn of the loop. -/
def applyEvent : Except Error AssertionState := do
  let s ← applyType P s event
  let firstValidTime ← laterTime P s.firstValidTime event.firstValidTime
  let evaluationCutoff ← laterTime P s.evaluationCutoff event.evaluationCutoff
  return { s with firstValidTime, evaluationCutoff }

/-! ## The snapshot -/

/-- `snapshot_fields`. -/
def snapshotFields : Record :=
  [(py "geometry", .dict s.geometry), (py "state_payload", .dict s.statePayload),
    (py "lifecycle_state", .str (py s.lifecycle.text)),
    (py "observability_state", .str s.observability), (py "evaluation_state", .str s.evaluation),
    (py "market_effective_start", .str s.marketEffectiveStart),
    (py "market_effective_end", .ofStr? s.marketEffectiveEnd),
    (py "first_valid_time", .str s.firstValidTime),
    (py "evaluation_cutoff", .str s.evaluationCutoff)]

/-- A snapshot; its fields are those of the state. -/
structure Snapshot where
  snapshotId : PyStr
  objectAssertionId : PyStr
  eventFrontierHash : PyStr
  eventFrontierSequence : Int
  state : AssertionState
  deriving DecidableEq

/-- `snapshot_identity`. -/
def snapshotIdentity (objectAssertionId eventFrontierHash : PyStr) (eventFrontierSequence : Int)
    (fields : Record) : Except Error PyStr :=
  hash P (.ofRecord [(py "schema", .str (py "c2p-object-snapshot-identity/v0.2")),
    (py "projection_schema_version", .str (py "v0.2")),
    (py "object_assertion_id", .str objectAssertionId),
    (py "event_frontier_hash", .str eventFrontierHash),
    (py "event_frontier_sequence", .int eventFrontierSequence),
    (py "snapshot_fields", .ofRecord fields)])

/-- `project_assertion_stream`, for the registered schema version. -/
def projectAssertionStream : Except Error Snapshot := do
  match ← orderedStream P events with
  | [] => .error (.projection (py "C2P_SNAPSHOT_EMPTY_STREAM"))
  | first :: rest =>
    check (first.eventType = .assertionGenesis)
      (.projection (py "C2P_SNAPSHOT_GENESIS_REQUIRED"))
    check (first.payload.get? (py "object_assertion_id") = some (.str first.streamId))
      (.projection (py "C2P_SNAPSHOT_ASSERTION_STREAM_MISMATCH"))
    let state ← genesisState P first
    let state ← rest.foldlM (applyEvent P) state
    let frontier := (first :: rest).getLast (List.cons_ne_nil first rest)
    let frontierHash ← eventRecordHash P frontier
    let snapshotId ← snapshotIdentity P first.streamId frontierHash frontier.sequenceNo
      (snapshotFields state)
    return ⟨snapshotId, first.streamId, frontierHash, frontier.sequenceNo, state⟩

end OvcReplay.C2p
