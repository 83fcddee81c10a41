import OvcReplay.C2Vnext.Clock
import OvcReplay.Python.Order

/-! # Parent context of C2 vNext

`parent_context.py`: the observation of the parent clock that a local observation stands in, and the
objects of that parent observation by their roles. What was a candidate and what was left out, with
the reasons, is kept in every link. -/

namespace OvcReplay.C2Vnext

open Python

namespace Parent

variable (P : Platform)

/-- `_require`. -/
def require (condition : Prop) [Decidable condition] (marker : PyStr) : Except Error Unit :=
  check condition (.parent marker)

/-- `_parse_time` of a value: only a text has `replace`. -/
def parse (v : PyVal) : Except Error Instant :=
  match v with
  | .str s =>
    match P.fromIsoFormat (replaceZ s) with
    | none => .error (.parent (py "INVALID_TIME"))
    | some d =>
      if d.utcOffset = none then .error (.parent (py "TIMEZONE_REQUIRED")) else .ok d.instant
  | _ => .error (.python .attributeError)

/-- `_parse_time(value[name])`. -/
def timeOf (value : Record) (name : String) : Except Error Instant := do
  let v ← field value name
  parse P v

/-- `str(value.get(name, ""))`. -/
def textOr (value : Record) (name : String) : Except Error PyStr :=
  (((value.get? (py name)).getD (.str [])).strOf P).mapError .python

/-- `None` or an integer. -/
def ofInt? : Option Int → PyVal
  | none => .none
  | some z => .int z

/-! ## Prohibited fields -/

/-- `text.upper()` of an ASCII text. -/
def upper (text : PyStr) : PyStr :=
  text.map fun c => if 97 ≤ c.val ∧ c.val ≤ 122 then c - 32 else c

/-- `text.lower()`, where it is ASCII: of the other code points only the Kelvin sign has a lower case
that is ASCII. -/
def lower (text : PyStr) : PyStr :=
  text.map fun c =>
    if 65 ≤ c.val ∧ c.val ≤ 90 then c + 32 else if c.val = 0x212A then 107 else c

/-- `PROHIBITED_KEYS`. -/
def prohibitedKeys : List PyStr :=
  [py "probability", py "risk", py "exposure", py "trade", py "trading", py "execution",
    py "position_size", py "target", py "stop", py "semantic_label", py "event_promotion",
    py "episode_promotion", py "active_selector", py "canonical_selector"]

mutual

/-- `_scan_prohibited`. -/
def scanProhibited (path : PyStr) : PyVal → Except Error Unit
  | .dict items => scanItems path items
  | .list xs => scanList path 0 xs
  | .tuple xs => scanList path 0 xs
  | _ => .ok ()

/-- The items of a mapping. -/
def scanItems (path : PyStr) : List (PyKey × PyVal) → Except Error Unit
  | [] => .ok ()
  | (k, v) :: items => do
    let key ← k.strOf.mapError .python
    require (lower key ∉ prohibitedKeys)
      (py "PROHIBITED_FIELD:" ++ path ++ py "." ++ key)
    scanProhibited (path ++ py "." ++ key) v
    scanItems path items

/-- The elements of a sequence from an index on. -/
def scanList (path : PyStr) (index : Nat) : List PyVal → Except Error Unit
  | [] => .ok ()
  | x :: xs => do
    scanProhibited (path ++ py "[" ++ natText index ++ py "]") x
    scanList path (index + 1) xs

end

/-- `_scan_prohibited` of a sequence of mappings. -/
def scanRecords (records : List Record) : Except Error Unit :=
  scanProhibited (py "$") (.list (records.map .ofRecord))

/-! ## The local observation -/

/-- A local observation: the texts of its fields. -/
structure LocalObservation where
  observationId : PyStr
  firstValidTime : Instant
  instrumentId : PyStr
  side : PyStr
  releaseId : PyStr
  calendarId : PyStr
  parentLatticeId : PyStr
  parentScopeId : PyStr
  deriving DecidableEq

/-- The text of a required field. -/
def requiredText (value : Record) (name : String) : Except Error PyStr := do
  let text ← fieldText P value name
  require (text ≠ []) (py "LOCAL_" ++ upper (py name) ++ py "_REQUIRED")
  return text

/-- `_validate_local`, with the texts that are read of the local observation afterwards. -/
def validateLocal (value : Record) : Except Error LocalObservation := do
  require (∀ name ∈ ["observation_id", "first_valid_time", "instrument_id", "side", "release_id",
    "calendar_id", "parent_lattice_id", "parent_scope_id"], py name ∈ value.keys)
    (py "LOCAL_OBSERVATION_FIELDS_REQUIRED")
  let firstValidTime ← timeOf P value "first_valid_time"
  let observationId ← requiredText P value "observation_id"
  let instrumentId ← requiredText P value "instrument_id"
  let side ← requiredText P value "side"
  let releaseId ← requiredText P value "release_id"
  let calendarId ← requiredText P value "calendar_id"
  let parentLatticeId ← requiredText P value "parent_lattice_id"
  let parentScopeId ← requiredText P value "parent_scope_id"
  return ⟨observationId, firstValidTime, instrumentId, side, releaseId, calendarId, parentLatticeId,
    parentScopeId⟩

/-- Two hours, in microseconds. -/
def twoHours : Int := 7200000000

/-- `datetime.min`. -/
def firstInstant : Instant := -62135596800000000

/-- `expected_parent_slot`: the last full two hours of universal time. -/
def expectedParentSlot (localFirstValidTime : Instant) : Except Error (PyStr × PyStr) := do
  let stop := localFirstValidTime - localFirstValidTime % twoHours
  let start := stop - twoHours
  check (firstInstant ≤ start) (.python .arithmeticError)
  return (iso P start, iso P stop)

/-- The reason of one identity field. -/
def identityReason (candidate : Record) (name : String) (expected : PyStr) :
    Except Error (List PyStr) := do
  let text ← textOr P candidate name
  return if text = expected then [] else [upper (py name) ++ py "_MISMATCH"]

/-- `_identity_reasons`. -/
def identityReasons (o : LocalObservation) (candidate : Record) : Except Error (List PyStr) := do
  let instrument ← identityReason P candidate "instrument_id" o.instrumentId
  let side ← identityReason P candidate "side" o.side
  let release ← identityReason P candidate "release_id" o.releaseId
  let calendar ← identityReason P candidate "calendar_id" o.calendarId
  let lattice ← identityReason P candidate "parent_lattice_id" o.parentLatticeId
  return instrument ++ side ++ release ++ calendar ++ lattice

/-- `_age_seconds`. -/
def ageSeconds (later earlier : Instant) : Except Error Int := do
  let seconds ← (PyFloat.totalSeconds (later - earlier)).trunc.mapError .python
  require (0 ≤ seconds) (py "NEGATIVE_AGE_PROHIBITED")
  return seconds

/-! ## Inventories -/

/-- A candidate and the reasons to leave it out. -/
structure Entry where
  candidateId : PyStr
  item : Record
  reasonCodes : List PyStr

/-- A candidate left out. -/
structure Exclusion where
  candidateId : PyStr
  reasonCodes : List PyStr
  deriving DecidableEq

/-- **The candidates of a link**, no two of which have the same id. -/
structure Inventory where
  entries : List Entry
  nodup : (entries.map Entry.candidateId).Nodup

namespace Inventory

/-- `candidate_ids`. -/
def candidateIds (inventory : Inventory) : List PyStr := inventory.entries.map Entry.candidateId

/-- The candidates without a reason against them. -/
def eligible (inventory : Inventory) : List Entry :=
  inventory.entries.filter fun e => e.reasonCodes = []

/-- `exclusions`. -/
def exclusions (inventory : Inventory) : List Exclusion :=
  (inventory.entries.filter fun e => e.reasonCodes ≠ []).map fun e =>
    ⟨e.candidateId, e.reasonCodes⟩

/-- One candidate of the loop; `seen` holds the ids so far. -/
def visit (idOf : Record → Except Error PyStr) (reasonsOf : Record → Except Error (List PyStr))
    (duplicate : PyStr) (inventory : Inventory) (item : Record) : Except Error Inventory := do
  let candidateId ← idOf item
  if h : candidateId ∈ inventory.candidateIds then .error (.parent duplicate)
  else do
    let reasonCodes ← reasonsOf item
    return ⟨inventory.entries ++ [⟨candidateId, item, reasonCodes⟩], by
      rw [List.map_append]
      exact inventory.nodup.append (List.nodup_singleton _) (by simpa [candidateIds] using h)⟩

/-- The loop over the candidates. -/
def collect (idOf : Record → Except Error PyStr) (reasonsOf : Record → Except Error (List PyStr))
    (duplicate : PyStr) (items : List Record) : Except Error Inventory :=
  items.foldlM (visit idOf reasonsOf duplicate) ⟨[], List.nodup_nil⟩

end Inventory

/-! ## Links -/

/-- What a resolver says of a link. -/
structure LinkArgs where
  linkKind : PyStr
  candidateIds : List PyStr
  eligibleIds : List PyStr
  exclusions : List Exclusion
  selectedId : Option PyStr
  selectionReason : PyStr
  evidenceStatus : PyStr
  reasonCodes : List PyStr
  parentObservationId : Option PyStr := none
  parentObjectId : Option PyStr := none
  parentDefinitionHash : Option PyStr := none
  parentFirstValidTime : Option PyStr := none
  ageEvidence : Record := []

/-- A link of a local observation to its parent context. -/
structure ParentLink extends LinkArgs where
  observation : LocalObservation
  expectedStart : PyStr
  expectedEnd : PyStr
  refreshStatus : PyStr
  previousLinkId : PyVal
  sourceIds : List PyStr
  structuralDepth : Option Int
  linkId : Option PyStr
  contentSha256 : Option PyStr

/-- The dictionary of an exclusion. -/
def Exclusion.toVal (e : Exclusion) : PyVal :=
  .ofRecord [(py "candidate_id", .str e.candidateId), (py "reason_codes", .ofStrs e.reasonCodes)]

/-- The key exclusions are sorted by. -/
def Exclusion.sortKey (e : Exclusion) : PyStr ×ₗ List PyStr := toLex (e.candidateId, e.reasonCodes)

namespace ParentLink

variable (link : ParentLink)

/-- `computability`. -/
def computability : PyStr :=
  if link.selectedId.isSome then py "COMPUTABLE" else py "NOT_COMPUTABLE"

/-- The payload the content hash is taken of, and the id of a link that has none yet. -/
def payload : Record :=
  [(py "schema", .str (py "c2_parent_context_link/vnext-r1")),
    (py "link_kind", .str link.linkKind),
    (py "local_observation_id", .str link.observation.observationId),
    (py "local_first_valid_time", .str (iso P link.observation.firstValidTime)),
    (py "as_of_time", .str (iso P link.observation.firstValidTime)),
    (py "parent_scope_id", .str link.observation.parentScopeId),
    (py "parent_clock", .str (py "2H_A_L")),
    (py "parent_lattice_id", .str link.observation.parentLatticeId),
    (py "parent_calendar_id", .str link.observation.calendarId),
    (py "expected_parent_slot_start", .str link.expectedStart),
    (py "expected_parent_slot_end", .str link.expectedEnd),
    (py "parent_observation_id", .ofStr? link.parentObservationId),
    (py "parent_object_id", .ofStr? link.parentObjectId),
    (py "parent_definition_hash", .ofStr? link.parentDefinitionHash),
    (py "parent_first_valid_time", .ofStr? link.parentFirstValidTime),
    (py "instrument_id", .str link.observation.instrumentId),
    (py "side", .str link.observation.side),
    (py "release_id", .str link.observation.releaseId),
    (py "evidence_status", .str link.evidenceStatus),
    (py "computability", .str link.computability),
    (py "reason_codes", .ofStrs link.reasonCodes),
    (py "resolver_id", .str (py "C2.PARENT.CONTEXT.RESOLVER.v1")),
    (py "resolver_version", .str (py "1")),
    (py "candidate_ids", .ofStrs link.candidateIds),
    (py "eligible_ids", .ofStrs link.eligibleIds),
    (py "exclusions", .list (link.exclusions.map Exclusion.toVal)),
    (py "selected_id", .ofStr? link.selectedId),
    (py "selection_reason", .str link.selectionReason),
    (py "fallback_id", .none),
    (py "refresh_status", .str link.refreshStatus),
    (py "previous_link_id", link.previousLinkId),
    (py "age_evidence", .ofRecord link.ageEvidence),
    (py "source_ids", .ofStrs link.sourceIds),
    (py "active", .bool false), (py "canonical", .bool false),
    (py "semantic_authority", .str (py "NONE")), (py "episode_authority", .str (py "NONE")),
    (py "thresholds", .list []), (py "authority", .str (py "SHADOW_FROZEN_READ_ONLY"))] ++
  (match link.linkId with
    | none => []
    | some linkId => [(py "link_id", .str linkId)]) ++
  match link.structuralDepth with
    | none => []
    | some depth => [(py "structural_depth", .int depth)]

/-- The dictionary of a link. -/
def toVal : PyVal :=
  .ofRecord (link.payload P ++ [(py "content_sha256", .ofStr? link.contentSha256)])

/-- The link with the hash of its content. -/
def rehash : Except Error ParentLink := do
  let hash ← contentHash P (.ofRecord (link.payload P))
  return { link with contentSha256 := some hash }

end ParentLink

variable (o : LocalObservation)

/-- `_base_link`. -/
def baseLink (expectedStart expectedEnd : PyStr) (args : LinkArgs) :
    Except Error ParentLink := do
  let body : ParentLink := { args with
    reasonCodes := sortedSet args.reasonCodes
    candidateIds := sortedSet args.candidateIds
    eligibleIds := sortedSet args.eligibleIds
    exclusions := sortedBy Exclusion.sortKey args.exclusions
    observation := o, expectedStart, expectedEnd
    refreshStatus := if args.selectedId = none then py "NOT_COMPUTABLE" else py "LINKED"
    previousLinkId := .none, sourceIds := [], structuralDepth := none
    linkId := none, contentSha256 := none }
  let linkId ← digest P "C2.PARENT.LINK" (.ofRecord (body.payload P))
  { body with linkId := some linkId }.rehash P

/-- The ages of a link, of which the resolvers fill in what they know. -/
def ageEvidence (elapsed localCount slotCount closureCount observationAge objectAge roleAge :
    Option Int) : Record :=
  [(py "elapsed_duration_seconds", ofInt? elapsed),
    (py "eligible_local_observation_count", ofInt? localCount),
    (py "parent_slot_count", ofInt? slotCount),
    (py "registered_closure_count", ofInt? closureCount),
    (py "parent_observation_age_seconds", ofInt? observationAge),
    (py "parent_object_age_seconds", ofInt? objectAge),
    (py "role_projection_age_seconds", ofInt? roleAge)]

/-- The id of a candidate. -/
def idOf (name : String) (marker : PyStr) (item : Record) : Except Error PyStr := do
  require (py name ∈ item.keys) marker
  fieldText P item name

/-! ## The fixed parent -/

/-- The slot has the expected interval. -/
def isExpected (expectedStart expectedEnd : PyStr) (slot : Record) : Except Error Bool := do
  require (py "interval_start" ∈ slot.keys ∧ py "interval_end" ∈ slot.keys)
    (py "PARENT_INTERVAL_REQUIRED")
  let start ← timeOf P slot "interval_start"
  if iso P start = expectedStart then
    let stop ← timeOf P slot "interval_end"
    return decide (iso P stop = expectedEnd)
  else return false

/-- `_slot_inventory`. -/
def slotInventory (slots : List Record) (expectedStart expectedEnd : PyStr) :
    Except Error Inventory :=
  Inventory.collect (idOf P "observation_id" (py "PARENT_OBSERVATION_ID_REQUIRED"))
    (fun slot => (isExpected P expectedStart expectedEnd slot).map fun expected =>
      if expected then [] else [py "NOT_EXPECTED_PARENT_SLOT"])
    (py "DUPLICATE_PARENT_OBSERVATION_ID") slots

/-- The reason of the status of a slot. -/
def statusReasons (status : PyStr) : List PyStr :=
  if status = py "COMPLETE" then []
  else if status ∈ [py "MISSING", py "INCOMPLETE", py "GAPPED", py "CONFLICTED",
      py "CLOSURE_UNRESOLVED", py "CENSORED", py "NOT_FIRST_VALID"] then
    [py "EXPECTED_PARENT_SLOT_" ++ status]
  else [py "EXPECTED_PARENT_SLOT_STATUS_INVALID"]

/-- The reasons of the times and the source of a slot. -/
def slotTiming (slot : Record) : Except Error (List PyStr) :=
  if py "first_valid_time" ∈ slot.keys ∧ py "source_id" ∈ slot.keys then do
    let parentFirstValid ← timeOf P slot "first_valid_time"
    let stop ← timeOf P slot "interval_end"
    let source ← fieldText P slot "source_id"
    return (if o.firstValidTime < parentFirstValid then [py "PARENT_NOT_FIRST_VALID"] else []) ++
      (if o.firstValidTime < stop then [py "PARENT_INTERVAL_END_AFTER_LOCAL_FIRST_VALID"] else []) ++
      if source = [] then [py "PARENT_SOURCE_ID_REQUIRED"] else []
  else .ok [py "PARENT_SLOT_IDENTITY_INCOMPLETE"]

/-- The reasons against the slot with the expected interval. -/
def slotReasons (slot : Record) : Except Error (List PyStr) := do
  let identity ← identityReasons P o slot
  let status ← textOr P slot "status"
  let timing ← slotTiming P o slot
  return sortedSet (identity ++ statusReasons status ++ timing)

/-- A fixed parent, as the roles need it. -/
structure FixedParent where
  observationId : PyStr
  firstValidTime : Instant

/-- The counts that `_resolve_fixed_parent` only passes on. -/
structure ContextCounts where
  eligibleLocalObservations : Int
  registeredClosures : Int

variable (inventory : Inventory)

/-- What a fixed link says where there are reasons against the slots with the expected interval. -/
def fixedArgs (exclusions : List Exclusion) (reasons : List PyStr) :
    LinkArgs where
  linkKind := py "FIXED_PARENT_OBSERVATION_LINK"
  candidateIds := inventory.candidateIds
  eligibleIds := []
  exclusions := exclusions
  selectedId := none
  selectionReason := reasons.headD []
  evidenceStatus := py "NOT_COMPUTABLE"
  reasonCodes := reasons

/-- What a link says where no slot has the expected interval. -/
def missingArgs (slotCount : Nat) (counts : ContextCounts) : LinkArgs where
  linkKind := py "FIXED_PARENT_OBSERVATION_LINK"
  candidateIds := inventory.candidateIds
  eligibleIds := []
  exclusions := inventory.exclusions
  selectedId := none
  selectionReason := py "EXPECTED_PARENT_SLOT_MISSING"
  evidenceStatus := py "NOT_COMPUTABLE"
  reasonCodes := [py "EXPECTED_PARENT_SLOT_MISSING"]
  ageEvidence := ageEvidence none (some counts.eligibleLocalObservations) (some slotCount)
    (some counts.registeredClosures) none none none

/-- What a link says where several slots have the expected interval. -/
def conflictedArgs (conflicted : List Entry) : LinkArgs :=
  fixedArgs inventory
    (inventory.exclusions ++ conflicted.map fun slot =>
      ⟨slot.candidateId, [py "EXPECTED_PARENT_SLOT_CONFLICTED"]⟩)
    [py "EXPECTED_PARENT_SLOT_CONFLICTED"]

/-- What a link says where there are reasons against the slot with the expected interval. -/
def refusedArgs (slot : Entry) (reasons : List PyStr) : LinkArgs :=
  fixedArgs inventory (inventory.exclusions ++ [⟨slot.candidateId, reasons⟩]) reasons

/-- What a link to the expected slot says. -/
def linkedArgs (slotCount : Nat) (slot : Entry) (counts : ContextCounts)
    (firstValid : Instant) (age : Int) : LinkArgs where
  linkKind := py "FIXED_PARENT_OBSERVATION_LINK"
  candidateIds := inventory.candidateIds
  eligibleIds := [slot.candidateId]
  exclusions := inventory.exclusions
  selectedId := some slot.candidateId
  selectionReason := py "EXACT_EXPECTED_COMPLETED_PARENT_SLOT"
  evidenceStatus := py "LINKED"
  reasonCodes := []
  parentObservationId := some slot.candidateId
  parentFirstValidTime := some (iso P firstValid)
  ageEvidence := ageEvidence (some age) (some counts.eligibleLocalObservations) (some slotCount)
    (some counts.registeredClosures) (some age) none (some age)

/-- A fixed link that selects nothing. -/
def refuse (expectedStart expectedEnd : PyStr) (args : LinkArgs) :
    Except Error (ParentLink × Option FixedParent) := do
  let link ← baseLink P o expectedStart expectedEnd args
  return (link, none)

/-- `_resolve_fixed_parent` of the only one of `slotCount` slots with the expected interval. -/
def resolveExpectedSlot (inventory : Inventory) (slotCount : Nat)
    (slot : Entry) (expectedStart expectedEnd : PyStr) (counts : ContextCounts) :
    Except Error (ParentLink × Option FixedParent) := do
  let reasons ← slotReasons P o slot.item
  if reasons ≠ [] then
    refuse P o expectedStart expectedEnd (refusedArgs inventory slot reasons)
  else
    let firstValid ← timeOf P slot.item "first_valid_time"
    let age ← ageSeconds o.firstValidTime firstValid
    let link ← baseLink P o expectedStart expectedEnd
      (linkedArgs P inventory slotCount slot counts firstValid age)
    let source ← fieldText P slot.item "source_id"
    let link ← { link with sourceIds := [source] }.rehash P
    return (link, some ⟨slot.candidateId, firstValid⟩)

/-- `_resolve_fixed_parent` once it is known which slots have the expected interval. -/
def resolveEligible (inventory : Inventory) (slotCount : Nat)
    (expectedStart expectedEnd : PyStr) (counts : ContextCounts) (eligible : List Entry) :
    Except Error (ParentLink × Option FixedParent) :=
  match eligible with
  | [] => refuse P o expectedStart expectedEnd (missingArgs inventory slotCount counts)
  | [slot] => resolveExpectedSlot P o inventory slotCount slot expectedStart expectedEnd counts
  | conflicted => refuse P o expectedStart expectedEnd (conflictedArgs inventory conflicted)

/-- `_resolve_fixed_parent`. -/
def resolveFixedParent (slots : List Record)
    (expectedStart expectedEnd : PyStr) (counts : ContextCounts) :
    Except Error (ParentLink × Option FixedParent) := do
  let inventory ← slotInventory P slots expectedStart expectedEnd
  resolveEligible P o inventory slots.length expectedStart expectedEnd counts inventory.eligible

/-! ## Roles -/

/-- The roles of parent objects; a structural object has a depth. -/
inductive Role where
  | measurement
  | axis
  | structural (depth : Int)

namespace Role

/-- The text of a role. -/
def text : Role → PyStr
  | measurement => py "PARENT_MEASUREMENT"
  | axis => py "PARENT_AXIS_CONTEXT"
  | structural _ => py "PARENT_STRUCTURAL"

/-- The kind of the link of a role. -/
def linkKind : Role → PyStr
  | measurement => py "PARENT_MEASUREMENT_LINK"
  | axis => py "PARENT_AXIS_CONTEXT_LINK"
  | structural _ => py "PARENT_STRUCTURAL_LINK_BY_DEPTH"

/-- The object has the role. -/
def holds (role : Role) (item : Record) : Except Error Bool := do
  let text ← textOr P item "role"
  if text = role.text then
    match role with
    | structural depth =>
      (((item.get? (py "depth")).getD .none).eqInt depth).mapError .python
    | _ => return true
  else return false

/-- The objects that have the role. -/
def candidates (role : Role) : List Record → Except Error (List Record)
  | [] => .ok []
  | item :: items => do
    let holds ← role.holds P item
    let rest ← role.candidates items
    return if holds then item :: rest else rest

end Role

/-- The reason of the parent observation an object belongs to. -/
def dependencyReasons (fixed : Option FixedParent) (item : Record) : Except Error (List PyStr) :=
  match fixed with
  | none => .ok [py "DEPENDENCY_NOT_COMPUTABLE"]
  | some fixed => do
    let text ← textOr P item "parent_observation_id"
    return if text = fixed.observationId then [] else [py "PARENT_OBSERVATION_ID_MISMATCH"]

/-- The reason of the time of an object. -/
def objectTiming (o : LocalObservation) (item : Record) : Except Error (List PyStr) :=
  if py "first_valid_time" ∈ item.keys then do
    let firstValid ← timeOf P item "first_valid_time"
    return if o.firstValidTime < firstValid then [py "PARENT_NOT_FIRST_VALID"] else []
  else .ok [py "PARENT_OBJECT_FIRST_VALID_REQUIRED"]

/-- The reasons against an object. -/
def objectReasons (o : LocalObservation) (fixed : Option FixedParent) (item : Record) :
    Except Error (List PyStr) := do
  let identity ← identityReasons P o item
  let dependency ← dependencyReasons P fixed item
  let status ← textOr P item "status"
  let hash ← textOr P item "definition_hash"
  let timing ← objectTiming P o item
  return sortedSet (identity ++ dependency ++
    (if status = py "VALID" then [] else [py "PARENT_OBJECT_STATUS_INVALID"]) ++
    (if hash = [] then [py "PARENT_DEFINITION_HASH_REQUIRED"] else []) ++ timing)

/-- What a role projection decides. -/
structure Choice where
  reason : PyStr
  selected : Option Entry
  eligible : List Entry
  exclusions : List Exclusion

/-- The choice among the objects of a role: there is none among several. -/
def choose (fixed : Option FixedParent) (inventory : Inventory) : Choice :=
  match fixed, inventory.eligible with
  | none, eligible =>
    ⟨py "DEPENDENCY_NOT_COMPUTABLE", none, eligible, inventory.exclusions⟩
  | some _, [] => ⟨py "NO_ELIGIBLE_PARENT_OBJECT", none, [], inventory.exclusions⟩
  | some _, [object] =>
    ⟨py "EXACTLY_ONE_ELIGIBLE_PARENT_OBJECT", some object, [object], inventory.exclusions⟩
  | some _, several =>
    let reason := py "MULTIPLE_ELIGIBLE_NO_GOVERNED_SELECTION"
    ⟨reason, none, [],
      inventory.exclusions ++ several.map fun object => ⟨object.candidateId, [reason]⟩⟩

/-- What is read of the object that a role projection selects. -/
structure SelectedObject where
  firstValidTime : Instant
  age : Int
  definitionHash : PyStr

/-- The object that a role projection selects. -/
def selectedObject (o : LocalObservation) (selected : Option Entry) :
    Except Error (Option SelectedObject) :=
  match selected with
  | none => .ok none
  | some object => do
    let firstValid ← timeOf P object.item "first_valid_time"
    let age ← ageSeconds o.firstValidTime firstValid
    let hash ← fieldText P object.item "definition_hash"
    return some ⟨firstValid, age, hash⟩

/-- The age of the fixed parent. -/
def fixedAge (o : LocalObservation) (fixed : Option FixedParent) : Except Error (Option Int) :=
  match fixed with
  | none => .ok none
  | some fixed => (ageSeconds o.firstValidTime fixed.firstValidTime).map some

/-- The depth of a structural link is set after the link was built. -/
def setDepth (role : Role) (link : ParentLink) : Except Error ParentLink :=
  match role with
  | .structural depth => { link with structuralDepth := some depth }.rehash P
  | _ => .ok link

/-- `_project_role`. -/
def projectRole (o : LocalObservation) (fixed : Option FixedParent) (parentObjects : List Record)
    (role : Role) (expectedStart expectedEnd : PyStr) : Except Error ParentLink := do
  let candidates ← role.candidates P parentObjects
  let inventory ← Inventory.collect (idOf P "object_id" (py "PARENT_OBJECT_ID_REQUIRED"))
    (objectReasons P o fixed) (py "DUPLICATE_PARENT_OBJECT_ID") candidates
  let choice := choose fixed inventory
  let object ← selectedObject P o choice.selected
  let observationAge ← fixedAge o fixed
  let link ← baseLink P o expectedStart expectedEnd {
    linkKind := role.linkKind
    candidateIds := inventory.candidateIds
    eligibleIds := choice.eligible.map Entry.candidateId
    exclusions := choice.exclusions
    selectedId := choice.selected.map Entry.candidateId
    selectionReason := choice.reason
    evidenceStatus := if choice.selected.isSome then py "LINKED" else py "NOT_COMPUTABLE"
    reasonCodes := if choice.selected.isSome then [] else [choice.reason]
    parentObservationId := fixed.map FixedParent.observationId
    parentObjectId := choice.selected.map Entry.candidateId
    parentDefinitionHash := object.map SelectedObject.definitionHash
    parentFirstValidTime := object.map fun object => iso P object.firstValidTime
    ageEvidence := ageEvidence (object.map SelectedObject.age) none none none observationAge
      (object.map SelectedObject.age) (object.map SelectedObject.age) }
  setDepth P role link

/-! ## Objects of higher order and episodes -/

/-- `int(s)` of a text, without a value where it raises. -/
abbrev IntOfText : Type := PyStr → Option Int

variable (intOfText : IntOfText)

/-- `int(item.get("depth", -1))`, or `-1` where it raises `TypeError` or `ValueError`. -/
def depthOf (item : Record) : Except Error Int :=
  let caught (r : Except PyError Int) : Except Error Int :=
    match r with
    | .ok z => .ok z
    | .error e => if e.isTypeOrValueError then .ok (-1) else .error (.python e)
  match (item.get? (py "depth")).getD (.int (-1)) with
  | .int z => .ok z
  | .bool b => .ok (if b then 1 else 0)
  | .float x => caught x.trunc
  | .decimal d => caught d.trunc
  | .str s => .ok ((intOfText s).getD (-1))
  | _ => .ok (-1)

/-- An object of higher order with its depth. -/
structure HigherOrderEntry extends Entry where
  depth : Int

/-- One object of higher order. -/
def higherOrderEntry (o : LocalObservation) (item : Record) : Except Error HigherOrderEntry := do
  let objectId ← idOf P "object_id" (py "HIGHER_ORDER_LOCAL_OBJECT_ID_REQUIRED") item
  let clock ← textOr P item "local_clock"
  let depth ← depthOf intOfText item
  let observation ← textOr P item "local_observation_id"
  return ⟨⟨objectId, item, sortedSet (
    (if clock = py "15M" then [] else [py "LOCAL_CLOCK_MISMATCH"]) ++
    (if depth < 1 then [py "HIGHER_ORDER_DEPTH_REQUIRED"] else []) ++
    if observation = o.observationId then [] else [py "LOCAL_OBSERVATION_ID_MISMATCH"])⟩, depth⟩

/-- The inventory of the objects of higher order. -/
structure HigherOrderProjection where
  localObservationId : PyStr
  candidateIds : List PyStr
  eligibleIds : List PyStr
  exclusions : List Exclusion
  /-- The id and the depth of every object that is linked. -/
  links : List (PyStr × Int)
  projectionId : PyStr

/-- The payload the id of the projection is the hash of, with the id. -/
def HigherOrderProjection.payload (p : HigherOrderProjection) : Record :=
  [(py "schema", .str (py "c2_higher_order_local_projection/vnext-r1")),
    (py "projection_id", .str p.projectionId),
    (py "local_observation_id", .str p.localObservationId),
    (py "candidate_ids", .ofStrs p.candidateIds), (py "eligible_ids", .ofStrs p.eligibleIds),
    (py "exclusions", .list (p.exclusions.map Exclusion.toVal)),
    (py "links", .list (p.links.map fun link => .ofRecord
      [(py "link_kind", .str (py "HIGHER_ORDER_LOCAL_CLOCK_LINK")),
        (py "object_id", .str link.1), (py "local_clock", .str (py "15M")),
        (py "depth", .int link.2), (py "parent_equivalence", .bool false),
        (py "active", .bool false), (py "canonical", .bool false),
        (py "authority", .str (py "SHADOW_FROZEN_READ_ONLY"))])),
    (py "selected_id", .none),
    (py "selection_reason", .str (py "INVENTORY_ONLY_NO_PARENT_EQUIVALENCE")),
    (py "fallback_id", .none), (py "active", .bool false), (py "canonical", .bool false),
    (py "authority", .str (py "SHADOW_FROZEN_READ_ONLY"))]

/-- `sorted(items, key=lambda row: str(row.get("object_id", "")))`. -/
def sortedByObjectId (items : List Record) : Except Error (List Record) := do
  let keyed ← items.mapM fun item => (textOr P item "object_id").map fun key => (key, item)
  return (sortedBy Prod.fst keyed).map Prod.snd

/-- `_higher_order_projection`. -/
def higherOrderProjection (o : LocalObservation) (items : List Record) :
    Except Error HigherOrderProjection := do
  let sorted ← sortedByObjectId P items
  let entries ← sorted.mapM (higherOrderEntry P intOfText o)
  let eligible := entries.filter fun e => e.reasonCodes = []
  let body : HigherOrderProjection := {
    localObservationId := o.observationId
    candidateIds := sortedBy id (entries.map fun e => e.candidateId)
    eligibleIds := sortedBy id (eligible.map fun e => e.candidateId)
    exclusions := (entries.filter fun e => e.reasonCodes ≠ []).map fun e =>
      ⟨e.candidateId, e.reasonCodes⟩
    links := eligible.map fun e => (e.candidateId, e.depth)
    projectionId := [] }
  let projectionId ← digest P "C2.LOCAL.HIGHER.ORDER" (.ofRecord body.payload)
  return { body with projectionId }

/-- The inventory of the episodes, none of which may be linked. -/
structure EpisodeProjection where
  candidateIds : List PyStr

/-- `exclusions` of the episodes. -/
def EpisodeProjection.exclusions (p : EpisodeProjection) : List Exclusion :=
  p.candidateIds.map fun id => ⟨id, [py "EPISODE_AUTHORITY_UNAVAILABLE"]⟩

/-- The dictionary of the episodes. -/
def EpisodeProjection.toVal (p : EpisodeProjection) : PyVal :=
  .ofRecord [(py "schema", .str (py "c2_episode_context_projection/vnext-r1")),
    (py "link_kind", .str (py "HIGHER_SCALE_EPISODE_LINK")),
    (py "candidate_ids", .ofStrs p.candidateIds), (py "eligible_ids", .list []),
    (py "exclusions", .list (p.exclusions.map Exclusion.toVal)), (py "selected_id", .none),
    (py "selection_reason", .str (py "EPISODE_AUTHORITY_UNAVAILABLE")),
    (py "fallback_id", .none), (py "computability", .str (py "NOT_COMPUTABLE")),
    (py "active", .bool false), (py "canonical", .bool false),
    (py "authority", .str (py "SHADOW_FROZEN_READ_ONLY")),
    (py "episode_authority", .str (py "NONE"))]

/-- `_episode_projection`. -/
def episodeProjection (candidates : List Record) : Except Error EpisodeProjection := do
  let ids ← (candidates.filterMap fun item =>
    (item.get? (py "episode_id")).filter PyVal.truthy).mapM fun v =>
      (v.strOf P).mapError .python
  return ⟨sortedBy id ids⟩

/-! ## The bundle -/

/-- `_apply_refresh`; `previous` is a mapping. -/
def applyRefresh (current : ParentLink) (previous : Option PyVal) : Except Error ParentLink :=
  match previous with
  | none => .ok current
  | some previous =>
    let before := (previous.get? (py "selected_id")).getD .none
    let after := .ofStr? current.selectedId
    let status :=
      if before = after ∧ after ≠ .none then py "UNCHANGED"
      else if before = .none ∧ after ≠ .none then py "LINKED"
      else if before ≠ .none ∧ after = .none then py "CLEARED"
      else if before ≠ after ∧ after ≠ .none then py "REFRESHED"
      else py "NOT_COMPUTABLE"
    { current with
      previousLinkId := (previous.get? (py "link_id")).getD .none
      refreshStatus := status }.rehash P

/-- The fixed link of a previous bundle, where it is a mapping. -/
def previousFixed (previousBundle : Option Record) : Option PyVal :=
  (previousBundle.bind fun bundle =>
    bundle.get? (py "fixed_parent_observation_link")).filter PyVal.isMapping

/-- The depths of the structural objects. -/
def objectDepths : List Record → Except Error (List Int)
  | [] => .ok []
  | item :: items => do
    let role ← textOr P item "role"
    let rest ← objectDepths items
    return (if role = py "PARENT_STRUCTURAL" then
      match item.get? (py "depth") with
      | some (.int z) => [z]
      | some (.bool b) => [if b then 1 else 0]
      | _ => []
      else []) ++ rest

/-- The keyword arguments of `resolve_parent_context`. -/
structure ParentQuery where
  localObservation : Record
  parentSlots : List Record
  parentObjects : List Record := []
  structuralDepths : List Int := []
  higherOrderLocalObjects : List Record := []
  episodeCandidates : List Record := []
  previousBundle : Option Record := none
  eligibleLocalObservationCount : Int := 0
  registeredClosureCount : Int := 0
  episodeAuthority : Bool := false

/-- The parent context of a local observation. -/
structure ParentBundle where
  observation : LocalObservation
  expectedStart : PyStr
  expectedEnd : PyStr
  fixedParentObservationLink : ParentLink
  parentMeasurementLink : ParentLink
  parentStructuralLinksByDepth : List ParentLink
  parentAxisContextLink : ParentLink
  higherOrder : HigherOrderProjection
  episode : EpisodeProjection
  /-- The id of the profile of the local observation in its parent. -/
  profileId : PyStr
  /-- The texts of the depths, with the computability of their links. -/
  structuralComputability : Record
  bundleId : PyStr
  contentSha256 : Option PyStr

namespace ParentBundle

variable (bundle : ParentBundle)

/-- The links that `_base_link` builds. -/
def links : List ParentLink :=
  [bundle.fixedParentObservationLink, bundle.parentMeasurementLink, bundle.parentAxisContextLink] ++
    bundle.parentStructuralLinksByDepth

/-- The local observation in its parent. -/
def localFrame : Record :=
  let fixedId := bundle.fixedParentObservationLink.selectedId
  [(py "schema", .str (py "c2_local_in_parent_frame_profile/vnext-r1")),
    (py "profile_id", .str bundle.profileId),
    (py "local_observation_id", .str bundle.observation.observationId),
    (py "fixed_parent_observation_id", .ofStr? fixedId),
    (py "parent_measurement_object_id", .ofStr? bundle.parentMeasurementLink.selectedId),
    (py "parent_structural_object_ids",
      .ofStrs (bundle.parentStructuralLinksByDepth.filterMap fun link => link.selectedId)),
    (py "parent_axis_context_object_id", .ofStr? bundle.parentAxisContextLink.selectedId),
    (py "computability",
      .str (if fixedId.isSome then py "COMPUTABLE" else py "NOT_COMPUTABLE")),
    (py "reason_codes",
      .ofStrs (if fixedId.isSome then [] else [py "DEPENDENCY_NOT_COMPUTABLE"])),
    (py "interpretation", .none), (py "active", .bool false), (py "canonical", .bool false),
    (py "authority", .str (py "SHADOW_FROZEN_READ_ONLY"))]

/-- `component_computability`. -/
def components : Record :=
  [(py "fixed_parent_observation", .str bundle.fixedParentObservationLink.computability),
    (py "parent_measurement", .str bundle.parentMeasurementLink.computability),
    (py "parent_axis_context", .str bundle.parentAxisContextLink.computability),
    (py "parent_structural_by_depth", .ofRecord bundle.structuralComputability),
    (py "higher_order_local_clock", .str (py "COMPUTABLE")),
    (py "episode_context", .str (py "NOT_COMPUTABLE"))]

/-- The payload the hashes of a bundle are taken of. -/
def payload : Record :=
  [(py "schema", .str (py "c2_parent_context_bundle/vnext-r1")),
    (py "bundle_id", .str bundle.bundleId),
    (py "resolver_id", .str (py "C2.PARENT.CONTEXT.RESOLVER.v1")),
    (py "resolver_version", .str (py "1")),
    (py "local_observation_id", .str bundle.observation.observationId),
    (py "local_first_valid_time", .str (iso P bundle.observation.firstValidTime)),
    (py "expected_parent_slot_start", .str bundle.expectedStart),
    (py "expected_parent_slot_end", .str bundle.expectedEnd),
    (py "fixed_parent_observation_link", bundle.fixedParentObservationLink.toVal P),
    (py "parent_measurement_link", bundle.parentMeasurementLink.toVal P),
    (py "parent_structural_links_by_depth",
      .list (bundle.parentStructuralLinksByDepth.map fun link => link.toVal P)),
    (py "parent_axis_context_link", bundle.parentAxisContextLink.toVal P),
    (py "local_in_parent_frame_profile", .ofRecord bundle.localFrame),
    (py "higher_order_local_clock_projection", .ofRecord bundle.higherOrder.payload),
    (py "higher_scale_episode_link", bundle.episode.toVal),
    (py "component_computability", .ofRecord bundle.components),
    (py "global_degraded_state", .none), (py "universal_staleness_threshold", .none),
    (py "fallback_parent_id", .none), (py "active", .bool false), (py "canonical", .bool false),
    (py "semantic_authority", .str (py "NONE")), (py "episode_authority", .str (py "NONE")),
    (py "consumer_denominator_authority", .str (py "NONE")),
    (py "authority", .str (py "SHADOW_FROZEN_READ_ONLY"))]

/-- The bundle with its ids and the hash of its content. -/
def identify : Except Error ParentBundle := do
  let profileId ← digest P "C2.LOCAL.PARENT.FRAME" (.ofRecord bundle.localFrame)
  let profiled := { bundle with profileId }
  let structuralComputability ← bundle.parentStructuralLinksByDepth.mapM fun link =>
    ((strInt (link.structuralDepth.getD 0)).mapError .python).map fun depth =>
      (depth, .str link.computability)
  let described := { profiled with structuralComputability := Dict.ofItems structuralComputability }
  let bundleId ← digest P "C2.PARENT.BUNDLE" (.ofRecord (described.payload P))
  let named := { described with bundleId }
  let hash ← contentHash P (.ofRecord (named.payload P))
  return { named with contentSha256 := some hash }

end ParentBundle

/-- `resolve_parent_context` once the fixed parent is resolved. -/
def resolveRoles (query : ParentQuery) (o : LocalObservation) (expectedStart expectedEnd : PyStr)
    (fixedLink : ParentLink) (fixed : Option FixedParent) : Except Error ParentBundle := do
  let fixedLink ← applyRefresh P fixedLink (previousFixed query.previousBundle)
  let project := fun role => projectRole P o fixed query.parentObjects role expectedStart expectedEnd
  let measurement ← project .measurement
  let axis ← project .axis
  let depths ← objectDepths P query.parentObjects
  let structural ← (sortedSet (query.structuralDepths ++ depths)).mapM fun depth =>
    project (.structural depth)
  let higherOrder ← higherOrderProjection P intOfText o query.higherOrderLocalObjects
  let episode ← episodeProjection P query.episodeCandidates
  { observation := o, expectedStart, expectedEnd, fixedParentObservationLink := fixedLink
    parentMeasurementLink := measurement, parentStructuralLinksByDepth := structural
    parentAxisContextLink := axis, higherOrder, episode, profileId := []
    structuralComputability := [], bundleId := [], contentSha256 := none :
    ParentBundle }.identify P

/-- `resolve_parent_context`. -/
def resolveParentContext (query : ParentQuery) : Except Error ParentBundle := do
  scanProhibited (py "$") (.ofRecord query.localObservation)
  scanRecords query.parentSlots
  scanRecords query.parentObjects
  scanRecords query.higherOrderLocalObjects
  scanRecords query.episodeCandidates
  require (query.episodeAuthority = false) (py "EPISODE_AUTHORITY_NOT_AVAILABLE")
  require (0 ≤ query.eligibleLocalObservationCount) (py "ELIGIBLE_LOCAL_COUNT_INVALID")
  require (0 ≤ query.registeredClosureCount) (py "REGISTERED_CLOSURE_COUNT_INVALID")
  let o ← validateLocal P query.localObservation
  let (expectedStart, expectedEnd) ← expectedParentSlot P o.firstValidTime
  let (fixedLink, fixed) ← resolveFixedParent P o query.parentSlots expectedStart expectedEnd
    ⟨query.eligibleLocalObservationCount, query.registeredClosureCount⟩
  resolveRoles P intOfText query o expectedStart expectedEnd fixedLink fixed

end Parent

end OvcReplay.C2Vnext
