import OvcReplay.Json.Dumps

/-! # Events of C2P v0.2

`canonical.py`, `chronology.py` and `events.py`: the canonical bytes of a value, the times of an
event, and `validate_event_record`. An event is the record of its fields; what it carries beyond them
is its payload. -/

namespace OvcReplay.C2p

open Python Json

variable (P : Platform)

/-- The exceptions of the C2P v0.2 modules, with their markers. -/
inductive Error where
  | python (e : PyError)
  | canonicalization (marker : PyStr)
  | chronology (marker : PyStr)
  | eventBuild (marker : PyStr)
  | projection (marker : PyStr)
  deriving DecidableEq, Repr

/-! ## `canonical.py` -/

/-- `s.rstrip("0").rstrip(".")`, for a text with a point. -/
def rstripZeros (s : PyStr) : PyStr :=
  (s.rdropWhile fun c => c = .ofChar '0').rdropWhile fun c => c = .ofChar '.'

/-- The text of a decimal. -/
def decimalText (d : PyDecimal) : Except Error PyStr :=
  match d with
  | .finite negative coefficient exponent =>
    if coefficient = 0 ∧ negative = true then
      .error (.canonicalization (py "nonfinite/negative zero forbidden"))
    else
      let s := (PyDecimal.finite negative coefficient exponent).formatF
      let s := if py "." <:+: s then rstripZeros s else s
      .ok (if s = [] then py "0" else s)
  | _ => .error (.canonicalization (py "nonfinite/negative zero forbidden"))

mutual

/-- `_walk`. -/
def walk : PyVal → Except Error PyVal
  | .str s =>
    if P.isNormalizedNfc s = true then .ok (.str s)
    else .error (.canonicalization (py "C2P_TEXT_NOT_NFC"))
  | .none => .ok .none
  | .bool b => .ok (.bool b)
  | .int z => .ok (.int z)
  | .float _ => .error (.canonicalization (py "binary floats forbidden"))
  | .decimal d => (decimalText d).map .str
  | .list xs => (walkList xs).map .list
  | .dict items => (walkItems items).map .dict
  | .tuple _ => .error (.canonicalization (py "unsupported type: tuple"))
  | .set _ => .error (.canonicalization (py "unsupported type: set"))
  | .other _ => .error (.canonicalization (py "unsupported type: object"))

/-- The elements of a list. -/
def walkList : List PyVal → Except Error (List PyVal)
  | [] => .ok []
  | x :: xs => do
    let y ← walk x
    return y :: (← walkList xs)

/-- The items of a dictionary; its keys are left alone. -/
def walkItems : List (PyKey × PyVal) → Except Error (List (PyKey × PyVal))
  | [] => .ok []
  | (k, v) :: items => do
    let w ← walk v
    return (k, w) :: (← walkItems items)

end

/-- `canonical_bytes`. -/
def canonicalBytes (v : PyVal) : Except Error PyStr := do
  let normalized ← walk P v
  let tree ← (dumpsNan P normalized).mapError .python
  (encodeUtf8 tree.render).mapError .python

/-- `_hash`. -/
def hash (v : PyVal) : Except Error PyStr := do
  let bytes ← canonicalBytes P v
  return (P.sha256 bytes).text

/-! ## `chronology.py` -/

/-- `parse_utc_z`, up to the instant of the time. -/
def parseUtcZ (value : PyStr) : Except Error Int :=
  if value.getLast? = some (.ofChar 'Z') then
    match P.fromIsoFormat (value.dropLast ++ py "+00:00") with
    | none => .error (.chronology (py "C2P_TIME_INVALID"))
    | some d =>
      if d.utcOffset = some 0 then .ok d.instant
      else .error (.chronology (py "C2P_TIME_NOT_UTC_Z"))
  else .error (.chronology (py "C2P_TIME_NOT_UTC_Z"))

/-- `validate_causal_times`. -/
def validateCausalTimes (marketEffectiveStart : PyStr) (marketEffectiveEnd : Option PyStr)
    (firstValidTime evaluationCutoff : PyStr) : Except Error Unit := do
  let start ← parseUtcZ P marketEffectiveStart
  let stop ← marketEffectiveEnd.mapM (parseUtcZ P)
  let fvt ← parseUtcZ P firstValidTime
  let cutoff ← parseUtcZ P evaluationCutoff
  check (∀ instant ∈ stop, start ≤ instant) (.chronology (py "C2P_EFFECTIVE_END_BEFORE_START"))
  check (fvt ≤ cutoff) (.chronology (py "C2P_FVT_AFTER_CUTOFF"))

/-! ## `events.py` -/

/-- `SUPPORTED_EVENT_TYPES`. -/
inductive EventType where
  | trackletOpened
  | trackletUpdated
  | trackletAmbiguous
  | trackletExpired
  | trackletPromoted
  | assertionGenesis
  | assertionUpdated
  | enterDormant
  | reappeared
  | retired
  | superseded
  | censoredAtRunEnd
  | split
  | merge
  | recurrenceLinked
  | checkpointSealed
  | replayReconciled
  | quarantinedIntegrityFailure
  deriving DecidableEq, Repr

namespace EventType

def text : EventType → String
  | trackletOpened => "TRACKLET_OPENED"
  | trackletUpdated => "TRACKLET_UPDATED"
  | trackletAmbiguous => "TRACKLET_AMBIGUOUS"
  | trackletExpired => "TRACKLET_EXPIRED"
  | trackletPromoted => "TRACKLET_PROMOTED"
  | assertionGenesis => "ASSERTION_GENESIS"
  | assertionUpdated => "ASSERTION_UPDATED"
  | enterDormant => "ENTER_DORMANT"
  | reappeared => "REAPPEARED"
  | retired => "RETIRED"
  | superseded => "SUPERSEDED"
  | censoredAtRunEnd => "CENSORED_AT_RUN_END"
  | split => "SPLIT"
  | merge => "MERGE"
  | recurrenceLinked => "RECURRENCE_LINKED"
  | checkpointSealed => "CHECKPOINT_SEALED"
  | replayReconciled => "REPLAY_RECONCILED"
  | quarantinedIntegrityFailure => "QUARANTINED_INTEGRITY_FAILURE"

/-- `ASSERTION_EVENT_TYPES`. -/
def assertion : List EventType :=
  [assertionGenesis, assertionUpdated, enterDormant, reappeared, retired, superseded,
    censoredAtRunEnd]

/-- `GENEALOGY_EVENT_TYPES`. -/
def genealogy : List EventType := [split, merge, recurrenceLinked]

end EventType

/-- An event with the fields of `EVENT_FIELDS`; a record with other fields or types is refused. -/
structure Event where
  schema : PyStr
  eventId : PyStr
  hashVersion : PyStr
  streamId : PyStr
  sequenceNo : Int
  eventType : EventType
  objectPackId : PyStr
  marketEffectiveStart : PyStr
  marketEffectiveEnd : Option PyStr
  firstValidTime : PyStr
  evaluationCutoff : PyStr
  decisionId : Option PyStr
  parentEventIds : List PyStr
  sourceHashes : List PyStr
  payload : Record
  priorEventHash : Option PyStr
  deriving DecidableEq

namespace Event

/-- The fields of an event but its id. -/
def withoutId (event : Event) : Record :=
  [(py "schema", .str event.schema), (py "hash_version", .str event.hashVersion),
    (py "stream_id", .str event.streamId), (py "sequence_no", .int event.sequenceNo),
    (py "event_type", .str (py event.eventType.text)),
    (py "object_pack_id", .str event.objectPackId),
    (py "market_effective_start", .str event.marketEffectiveStart),
    (py "market_effective_end", .ofStr? event.marketEffectiveEnd),
    (py "first_valid_time", .str event.firstValidTime),
    (py "evaluation_cutoff", .str event.evaluationCutoff),
    (py "decision_id", .ofStr? event.decisionId),
    (py "parent_event_ids", .ofStrs event.parentEventIds),
    (py "source_hashes", .ofStrs event.sourceHashes), (py "payload", .ofRecord event.payload),
    (py "prior_event_hash", .ofStr? event.priorEventHash)]

/-- The dictionary of an event. -/
def toVal (event : Event) : PyVal :=
  .ofRecord ((py "event_id", .str event.eventId) :: event.withoutId)

end Event

/-- `_HEX64.fullmatch`. -/
def isHex64 (s : PyStr) : Bool :=
  s.length = 64 ∧ s.all fun c => (48 ≤ c.val ∧ c.val ≤ 57) ∨ (97 ≤ c.val ∧ c.val ≤ 102)

/-- `_require_hash`. -/
def requireHash (value : Option PyStr) (field : String) (nullable : Bool) : Except Error Unit :=
  check (value.elim nullable isHex64 = true)
    (.eventBuild (py "C2P_EVENT_INVALID_HASH:" ++ py field))

/-- `_sorted_unique_hashes`. -/
def sortedUniqueHashes (values : List PyStr) (field : String) : Except Error (List PyStr) := do
  forM values fun value => requireHash (some value) field false
  check values.Nodup (.eventBuild (py "C2P_EVENT_DUPLICATE_HASH:" ++ py field))
  return sortedBy id values

mutual

/-- `_validate_nfc_tree`. -/
def validateNfcTree (path : PyStr) : PyVal → Except Error Unit
  | .str s =>
    check (P.isNormalizedNfc s = true) (.eventBuild (py "C2P_EVENT_TEXT_NOT_NFC:" ++ path))
  | .dict items => validateNfcItems path items
  | .list xs => validateNfcList path 0 xs
  | .tuple xs => validateNfcList path 0 xs
  | _ => .ok ()

/-- The check for the items of a mapping. -/
def validateNfcItems (path : PyStr) : List (PyKey × PyVal) → Except Error Unit
  | [] => .ok ()
  | (k, v) :: items => do
    match k with
    | .str key =>
      check (P.isNormalizedNfc key = true)
        (.eventBuild (py "C2P_EVENT_TEXT_NOT_NFC:" ++ path ++ py "." ++ key))
      validateNfcTree (path ++ py "." ++ key) v
    | _ => .error (.eventBuild (py "C2P_EVENT_NON_STRING_KEY:" ++ path))
    validateNfcItems path items

/-- The check for the elements of a sequence. -/
def validateNfcList (path : PyStr) (index : Nat) : List PyVal → Except Error Unit
  | [] => .ok ()
  | x :: xs => do
    validateNfcTree (path ++ py "[" ++ natText index ++ py "]") x
    validateNfcList path (index + 1) xs

end

variable (event : Event)

/-- `_genesis_event_reference_payload`. -/
def genesisReferencePayload : Except Error Record := do
  let objectAssertionId := match event.payload.get? (py "object_assertion_id") with
    | some (.str s) => some s
    | _ => none
  requireHash objectAssertionId "payload.object_assertion_id" false
  check (some event.streamId = objectAssertionId)
    (.eventBuild (py "C2P_ASSERTION_GENESIS_STREAM_MISMATCH"))
  requireHash event.decisionId "decision_id" false
  return [(py "schema", .str (py "c2p-assertion-genesis-event-reference/v0.2")),
    (py "object_assertion_id", .ofStr? objectAssertionId),
    (py "object_pack_id", .str event.objectPackId),
    (py "genesis_match_decision_id", .ofStr? event.decisionId),
    (py "first_valid_identity_time", .str event.firstValidTime)]

/-- `logical_event_id`. -/
def logicalEventId : Except Error PyStr := do
  if event.eventType = .assertionGenesis then
    hash P (.ofRecord (← genesisReferencePayload event))
  else
    hash P (.ofRecord [(py "schema", .str (py "c2p-event-identity/v0.2")),
      (py "event", .ofRecord event.withoutId)])

/-- The chronology of an event; its exceptions are wrapped. -/
def checkChronology : Except Error Unit :=
  (validateCausalTimes P event.marketEffectiveStart event.marketEffectiveEnd event.firstValidTime
    event.evaluationCutoff).mapError fun e =>
      match e with
      | .chronology marker => .eventBuild (py "C2P_EVENT_CHRONOLOGY:" ++ marker)
      | e => e

/-- An unresolved decision mutates no assertion; a terminal that cannot be hashed raises. -/
def checkDecision : Except Error Unit :=
  match event.payload.get? (py "match_decision_terminal") with
  | none => .ok ()
  | some terminal =>
    if terminal.hashable = true then
      check (terminal ∉ ["AMBIGUOUS", "NOT_EVALUABLE", "CONFLICT"].map fun s => .str (py s))
        (.eventBuild (py "C2P_UNRESOLVED_DECISION_CANNOT_MUTATE:" ++
          match terminal with
          | .str s => s
          | _ => []))
    else .error (.python .typeError)

/-- `validate_event_record`. -/
def validateEventRecord : Except Error Unit := do
  check (event.schema = py "c2p-event/v0.2") (.eventBuild (py "C2P_EVENT_SCHEMA_MISMATCH"))
  check (event.hashVersion = py "sha256-canonical-json-v1")
    (.eventBuild (py "C2P_EVENT_HASH_VERSION_MISMATCH"))
  check (event.streamId ≠ []) (.eventBuild (py "C2P_EVENT_STREAM_REQUIRED"))
  check (event.objectPackId ≠ []) (.eventBuild (py "C2P_EVENT_OBJECT_PACK_REQUIRED"))
  check (0 ≤ event.sequenceNo) (.eventBuild (py "C2P_EVENT_SEQUENCE_INVALID"))
  check (event.sequenceNo = 0 → event.priorEventHash = none)
    (.eventBuild (py "C2P_EVENT_GENESIS_PRIOR_FORBIDDEN"))
  if 0 < event.sequenceNo then requireHash event.priorEventHash "prior_event_hash" false
  requireHash event.decisionId "decision_id" true
  let normalizedParents ← sortedUniqueHashes event.parentEventIds "parent_event_ids"
  let normalizedSources ← sortedUniqueHashes event.sourceHashes "source_hashes"
  check (event.parentEventIds = normalizedParents)
    (.eventBuild (py "C2P_EVENT_PARENT_ORDER_NONCANONICAL"))
  check (event.sourceHashes = normalizedSources)
    (.eventBuild (py "C2P_EVENT_SOURCE_ORDER_NONCANONICAL"))
  validateNfcTree P (py "payload") event.toVal
  checkChronology P event
  let expectedId ← logicalEventId P event
  check (event.eventId = expectedId) (.eventBuild (py "C2P_EVENT_ID_MISMATCH"))
  if event.eventType = .assertionGenesis then
    check (event.sequenceNo = 0 ∧ event.priorEventHash = none)
      (.eventBuild (py "C2P_ASSERTION_GENESIS_POSITION_INVALID"))
    check (event.payload.get? (py "lifecycle_state") = some (.str (py "ACTIVE")))
      (.eventBuild (py "C2P_ASSERTION_GENESIS_NOT_ACTIVE"))
  if event.eventType = .censoredAtRunEnd then
    check (py "lifecycle_state" ∉ event.payload.keys)
      (.eventBuild (py "C2P_CENSORING_CANNOT_MUTATE_LIFECYCLE"))
  if event.eventType ∈ EventType.assertion ∧ event.eventType ≠ .assertionGenesis then
    checkDecision event

/-- `event_record_hash`. -/
def eventRecordHash : Except Error PyStr := do
  validateEventRecord P event
  hash P event.toVal

end OvcReplay.C2p
