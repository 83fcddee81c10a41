import OvcReplay.C2p.Projection
import OvcReplay.P1cdi.Identity

/-! # Reference queries

`query.py` of P2CTI and `next_theory_work` of its `demand.py`: the engine keeps the entries of a
generation and collections of relations, duplicate screens and demands, all sorted, and answers
fourteen families of queries from what a visibility context lets through. -/

namespace OvcReplay.P2cti

open Python Json
open P1cdi (canonicalSha256)

/-- What the engine raises. -/
inductive QueryError where
  | python (e : PyError)
  /-- `QueryValidationError`. -/
  | query (message : String)
  /-- `DemandValidationError`. -/
  | demand (message : String)
  deriving DecidableEq, Repr

/-- A call into the standard library. -/
def python {α : Type} (r : Except PyError α) : Except QueryError α := r.mapError .python

/-! ## What the engine keeps -/

/-- A visibility context that `_validate_visibility` let through. -/
structure Visibility where
  visibilityState : PyStr
  allowedQueryFamilies : List PyStr
  visibleSubjectIds : List PyStr
  visibleRelationIds : List PyStr
  visibleDemandIds : List PyStr
  allowHistory : Bool
  allowAggregateCounts : Bool

/-- A generation by its id and its ordinal. -/
structure GenerationRef where
  generationId : PyStr
  generationOrdinal : Int

/-- What the constructor keeps besides the collections: the generation bundle, the visibility
context, the history and the resolution of the exposure evidence, each of them checked. -/
structure Context where
  generation : GenerationRef
  sourceFrontierId : PyStr
  currentnessState : PyStr
  completenessState : PyStr
  currentnessWarnings : List PyStr
  visibility : Visibility
  /-- Sorted by their entry ids. -/
  entries : List Record
  history : List GenerationRef
  exposureState : PyVal
  exposureSource : PyVal

/-- The engine; its collections are sorted by `_canonical_record_key`. -/
structure Engine where
  context : Context
  relations : List Record
  screens : List Record
  demands : List Record

/-! ## Reading records -/

variable (record : Record)

/-- `record.get(key, default)`. -/
def field (key : String) (default : PyVal) : PyVal :=
  (record.get? (py key)).getD default

/-- `record["payload"]` or an empty mapping. The constructor has read it as a mapping. -/
def payload : PyVal := field record "payload" (.dict [])

/-- `record.get("payload", {}).get(key, default)`. -/
def payloadField (key : String) (default : PyVal) : PyVal :=
  ((payload record).get? (py key)).getD default

/-- `record[key]`. -/
def subscript (key : String) : Except QueryError PyVal :=
  match record.get? (py key) with
  | some v => .ok v
  | none => .error (.python .keyError)

/-- The value is the text `name`. -/
def isText (v : PyVal) (name : String) : Bool := decide (v = .str (py name))

/-- `v in {x, …}`. -/
def inSet (v : PyVal) (xs : List PyVal) : Except PyError Bool :=
  if xs.all PyVal.hashable && v.hashable then .ok (decide (v ∈ xs)) else .error .typeError

/-- `_record_id`, `None` when the record has none. -/
def recordId : PyVal :=
  ((["relation_id", "screen_id", "ambiguity_id", "conflict_id"].map fun name =>
    payloadField record name .none).find? PyVal.truthy).getD .none

/-! ## Visibility -/

/-- The references of a record whose ids decide whether it is visible. -/
def subjectRefs : Except PyError (List PyVal) :=
  match payloadField record "subject_refs" .none with
  | .none => .ok [payloadField record "left_generation_ref" (.dict []),
      payloadField record "right_generation_ref" (.dict [])]
  | refs => refs.eachMapping

/-- `ref.get("object_id")` as a member of a set. -/
def subjectId (ref : PyVal) : Except PyError PyVal :=
  let id := (ref.get? (py "object_id")).getD .none
  if id.hashable then .ok id else .error .typeError

variable (visibility : Visibility)

/-- `_visible_relation`. -/
def visibleRelation (record : Record) : Except QueryError Bool :=
  if recordId record ∈ visibility.visibleRelationIds.map PyVal.str then python do
    let refs ← subjectRefs record
    let ids ← (refs.filter PyVal.isMapping).mapM subjectId
    return decide (ids ⊆ visibility.visibleSubjectIds.map PyVal.str)
  else .ok false

/-- `_visible_demand`. -/
def visibleDemand (record : Record) : Bool :=
  decide (payloadField record "demand_id" .none ∈ visibility.visibleDemandIds.map .str)

/-- The subject of an entry is visible: `entry["subject_id"] in visible_subject_ids`. -/
def visibleEntry (entry : Record) : Except QueryError Bool := do
  let id ← subscript entry "subject_id"
  return decide (id ∈ visibility.visibleSubjectIds.map .str)

/-- `[row for row in rows if condition]`, where the condition may raise. -/
def comprehension (condition : Record → Except QueryError Bool) :
    List Record → Except QueryError (List Record)
  | [] => .ok []
  | row :: rows => do
    let kept ← condition row
    let rest ← comprehension condition rows
    return if kept then row :: rest else rest

/-- `a and b`, where `b` is looked at when `a` holds. -/
def andThen (a : Except QueryError Bool) (b : Except QueryError Bool) : Except QueryError Bool := do
  if ← a then b else return false

/-! ## Results -/

/-- A record with the given fields. -/
def object (fields : List (String × PyVal)) : PyVal :=
  .ofRecord (fields.map fun p => (py p.1, p.2))

/-- The rows as a list. -/
def ofRows (rows : List Record) : PyVal := .list (rows.map .ofRecord)

/-- What `_bounded` gives. -/
structure Bounded where
  rows : List PyVal
  warnings : List PyStr
  truncation : PyVal

/-- `_bounded`. -/
def bounded (rows : List PyVal) (limit : PyVal) : Except QueryError Bounded :=
  match limit with
  | .none => .ok ⟨rows, [], .none⟩
  | .int n =>
    if n < 1 then .error (.query "limit must be a positive integer")
    else if rows.length ≤ n.toNat then .ok ⟨rows, [], .none⟩
    else .ok ⟨rows.take n.toNat, [py "RESULT_SET_TRUNCATED_EXPLICITLY"],
      object [("returned", .int n), ("available", .int rows.length), ("silent", .bool false)]⟩
  | _ => .error (.query "limit must be a positive integer")

/-- The envelope of a result. -/
structure Envelope where
  queryFamily : PyStr
  generationId : PyStr
  sourceFrontierId : PyStr
  currentnessState : PyStr
  visibilityState : PyStr
  completenessState : PyStr
  warnings : List PyStr
  ambiguityState : PyStr
  conflictState : PyStr
  result : PyVal
  deriving DecidableEq

/-- `_CURRENTNESS_DEGRADING_WARNINGS`. -/
def currentnessDegradingWarnings : List PyStr :=
  [py "RELATION_CONSTITUENT_NOT_CURRENT", py "CROSS_MODE_EXPOSURE_NOT_CURRENT",
    py "CROSS_MODE_RELATION_NOT_CURRENT", py "DEMAND_QUESTION_NOT_CURRENT",
    py "CURRENTNESS_UNRESOLVED", py "VISIBILITY_DENIED", py "AGGREGATE_VISIBILITY_DENIED"]

/-- `_COMPLETENESS_DEGRADING_WARNINGS`. -/
def completenessDegradingWarnings : List PyStr :=
  [py "RELATION_OWNER_EVIDENCE_UNRESOLVED", py "RELATION_OWNER_EVIDENCE_CONFLICT",
    py "CROSS_MODE_EXPOSURE_UNRESOLVED", py "CROSS_MODE_EXPOSURE_NOT_CURRENT",
    py "CROSS_MODE_FORMAL_CORRESPONDENCE_REQUIRED", py "CROSS_MODE_RELATION_NOT_CURRENT",
    py "DEMAND_QUESTION_NOT_CURRENT", py "VISIBILITY_DENIED", py "AGGREGATE_VISIBILITY_DENIED"]

/-- `_envelope`. -/
def envelope (context : Context) (family : PyStr) (result : PyVal) (warnings : List PyStr) :
    Envelope :=
  let combined := sortedSet (context.currentnessWarnings ++ warnings)
  { queryFamily := family
    generationId := context.generation.generationId
    sourceFrontierId := context.sourceFrontierId
    currentnessState :=
      if combined.any fun w => w ∈ currentnessDegradingWarnings then py "REASSESSMENT_REQUIRED"
      else context.currentnessState
    visibilityState := context.visibility.visibilityState
    completenessState :=
      if combined.any fun w => w ∈ completenessDegradingWarnings then py "UNRESOLVED"
      else context.completenessState
    warnings := combined
    ambiguityState :=
      if py "RELATION_AMBIGUITY_UNRESOLVED" ∈ combined then py "UNRESOLVED" else py "NONE_VISIBLE"
    conflictState :=
      if py "RELATION_CONFLICT_BLOCKING" ∈ combined ∨
        py "RELATION_OWNER_EVIDENCE_CONFLICT" ∈ combined then py "BLOCKING"
      else py "NONE_VISIBLE"
    result := result }

variable (P : Platform) (casefold : PyStr → PyStr)

/-! ## Entries -/

/-- A result and its warnings. -/
structure Answer where
  result : PyVal
  warnings : List PyStr

/-- `params.get(key, default)`. -/
def param (params : Record) (key : String) (default : PyVal) : PyVal := field params key default

/-- The first entry of a subject. -/
def findEntry (subjectId : PyVal) : List Record → Except QueryError (Option Record)
  | [] => .ok none
  | entry :: entries => do
    let id ← subscript entry "subject_id"
    if id = subjectId then return some entry else findEntry subjectId entries

variable (context : Context)

/-- `_entry`. -/
def entryOf (subjectId : PyVal) : Except QueryError (Option Record) :=
  if subjectId ∈ context.visibility.visibleSubjectIds.map .str then
    findEntry subjectId context.entries
  else .ok none

/-- The subject of an entry is visible and contains the text, case aside. -/
def matchesText (visibility : Visibility) (text : PyStr) (entry : Record) :
    Except QueryError Bool := do
  match ← subscript entry "subject_id" with
  | .str id => return decide (id ∈ visibility.visibleSubjectIds ∧ casefold text <:+: casefold id)
  | _ => return false

variable (entry : Record)

/-- What `SEARCH` says of an entry. -/
def matchOf : Except QueryError PyVal := do
  return object [("subject_id", ← subscript entry "subject_id"),
    ("entry_id", ← subscript entry "entry_id"), ("retrieval_authority", .str (py "ADVISORY_ONLY"))]

/-- `SEARCH`. -/
def search (params : Record) : Except QueryError Answer :=
  match param params "text" .none with
  | .str (c :: text) => do
    let found ← comprehension
      (matchesText casefold context.visibility (c :: text)) context.entries
    let rows ← found.mapM matchOf
    let cut ← bounded rows (param params "limit" .none)
    return ⟨object [("matches", .list cut.rows), ("truncation", cut.truncation)], cut.warnings⟩
  | _ => .error (.query "SEARCH requires non-empty text")

/-- A family that answers from one entry. -/
def fromEntry (params : Record)
    (view : Record → Except QueryError PyVal) : Except QueryError Answer := do
  match ← entryOf context (param params "subject_id" .none) with
  | none => return ⟨.none, []⟩
  | some entry => return ⟨← view entry, []⟩

/-- `GET_THEORY`. -/
def getTheory : Except QueryError PyVal :=
  .ok (object [("inventory_entry", .ofRecord entry),
    ("scientific_payload", .str (py "OWNER_REFERENCE_ONLY_NOT_COPIED"))])

/-- `WHY_HERE`. -/
def whyHere : Except QueryError PyVal := do
  return object [("subject_id", ← subscript entry "subject_id"),
    ("source_object_ref", ← subscript entry "source_object_ref"),
    ("source_locator", ← subscript entry "source_locator"),
    ("reason_codes", .list [.str (py "GENERATION_ZERO_SOURCE_CENSUS_MEMBER")])]

/-- `CURRENT_STATE`. -/
def currentState : Except QueryError PyVal := do
  return object [("subject_id", ← subscript entry "subject_id"),
    ("capture_state", ← subscript entry "capture_state"),
    ("currentness_state", ← subscript entry "currentness_state"),
    ("authority_refs", ← subscript entry "authority_refs"),
    ("orthogonal_state_inference", .bool false)]

/-- `HISTORY`. -/
def historyOf : Except QueryError Answer :=
  if context.visibility.allowHistory then
    let retained := context.history.map fun ref => (ref, py "HISTORICAL_RETAINED_ADDRESSABLE")
    let rows := retained ++ [(context.generation, py "CURRENT_REFERENCE_GENERATION")]
    let sorted := sortedBy (fun row => row.1.generationOrdinal)
      (sortedBy (fun row => row.1.generationId) rows)
    .ok ⟨.list (sorted.map fun row => object [("generation_id", .str row.1.generationId),
      ("generation_ordinal", .int row.1.generationOrdinal), ("disposition", .str row.2)]), []⟩
  else .ok ⟨.list [], [py "VISIBILITY_DENIED"]⟩

/-! ## Relations -/

/-- A visible record of a type. -/
def visibleOfType (visibility : Visibility) (type : String) (record : Record) :
    Except QueryError Bool :=
  andThen (.ok (isText (field record "object_type" .none) type)) (visibleRelation visibility record)

/-- The subject is one of the two sides of a relation. -/
def concernsSides (subjectId : PyVal) (record : Record) : Except QueryError Bool :=
  let side := fun name =>
    ((payloadField record name (.dict [])).get? (py "object_id")).getD .none
  python (inSet subjectId [side "left_generation_ref", side "right_generation_ref"])

/-- The subject is one of the references of a record. -/
def concernsRefs (subjectId : PyVal) (record : Record) : Except QueryError Bool := python do
  let refs ← (payloadField record "subject_refs" (.list [])).eachMapping
  let ids ← refs.mapM fun ref => ref.getOr (py "object_id") .none
  inSet subjectId ids

/-- A text. -/
def textOf? : PyVal → Option PyStr
  | .str s => some s
  | _ => none

/-- A text that is not empty. -/
def nonEmptyText? : PyVal → Option PyStr
  | .str (c :: text) => some (c :: text)
  | _ => none

/-- The warnings a row brings. -/
def constituentWarnings (record : Record) : List PyStr :=
  (if isText (payloadField record "current_generation_binding" .none) "CURRENT" then []
    else [py "RELATION_CONSTITUENT_NOT_CURRENT"]) ++
  (if isText (payloadField record "owner_evidence_state" .none) "CONFLICT" then
      [py "RELATION_OWNER_EVIDENCE_CONFLICT"]
    else if isText (payloadField record "owner_evidence_state" .none) "RESOLVED" then []
    else [py "RELATION_OWNER_EVIDENCE_UNRESOLVED"]) ++
  match payloadField record "warnings" (.list []) with
  | .list xs => xs.filterMap nonEmptyText?
  | .tuple xs => xs.filterMap nonEmptyText?
  | _ => []

/-- `_relation_constituent_warnings`. -/
def relationConstituentWarnings (rows : List Record) : List PyStr :=
  sortedSet (rows.flatMap constituentWarnings)

variable (engine : Engine)

variable (params : Record)

/-- `RELATIONS`. -/
def relationsOf : Except QueryError Answer := do
  let subjectId := param params "subject_id" .none
  let visible := visibleOfType engine.context.visibility
  let direct ← comprehension (fun row =>
    andThen (visible "THEORY_RELATION" row) (concernsSides subjectId row)) engine.relations
  let ambiguities ← comprehension (fun row =>
    andThen (visible "RELATION_AMBIGUITY" row) (concernsRefs subjectId row)) engine.relations
  let conflicts ← comprehension (fun row =>
    andThen (visible "RELATION_CONFLICT" row) (concernsRefs subjectId row)) engine.relations
  let cut ← bounded (direct.map .ofRecord) (param params "limit" .none)
  return ⟨object [("relations", .list cut.rows), ("ambiguities", ofRows ambiguities),
      ("conflicts", ofRows conflicts), ("truncation", cut.truncation)],
    cut.warnings ++ relationConstituentWarnings (direct.take cut.rows.length) ++
      (if ambiguities = [] then [] else [py "RELATION_AMBIGUITY_UNRESOLVED"]) ++
      (if conflicts = [] then [] else [py "RELATION_CONFLICT_BLOCKING"])⟩

/-- `DUPLICATE_SCREEN`. -/
def duplicateScreen : Except QueryError Answer := do
  let rows ← comprehension (fun row =>
    andThen (visibleRelation engine.context.visibility row)
      (concernsRefs (param params "subject_id" .none) row)) engine.screens
  return ⟨object [("screens", ofRows rows), ("identity_collapse_allowed", .bool false)], []⟩

/-- `payload.get(key) in {…}`. -/
def fieldIn (record : Record) (key : String) (names : List String) : Except QueryError Bool :=
  python (inSet (payloadField record key .none) (names.map fun name => .str (py name)))

/-- `CROSS_MODE`. -/
def crossMode : Except QueryError Answer := do
  if !isText engine.context.exposureState "RESOLVED" then
    return ⟨.list [], [py "CROSS_MODE_EXPOSURE_UNRESOLVED"]⟩
  else if !isText ((engine.context.exposureSource.get? (py "semantic_generation")).getD .none)
      "v0.1" then
    return ⟨.list [], [py "CROSS_MODE_EXPOSURE_NOT_CURRENT"]⟩
  else
    let candidates ← comprehension (fun row =>
      andThen (visibleRelation engine.context.visibility row)
        (.ok (isText (payloadField row "relation_family" .none) "CROSS_MODE"))) engine.relations
    let rows ← comprehension (fun row =>
      andThen (.ok (isText (payloadField row "current_generation_binding" .none) "CURRENT" &&
          isText (payloadField row "owner_evidence_state" .none) "RESOLVED" &&
          isText (payloadField row "admission_disposition" .none) "ADMITTED_REVIEWED"))
        (fieldIn row "qualification"
          ["INDEPENDENT_RULE_REVIEWED", "HUMAN_RESEARCH_OPERATIONS_DECISION"])) candidates
    return ⟨ofRows rows,
      (if candidates.any fun row =>
          !isText (payloadField row "current_generation_binding" .none) "CURRENT" then
        [py "CROSS_MODE_RELATION_NOT_CURRENT"] else []) ++
      (if rows.length = candidates.length then []
        else [py "CROSS_MODE_FORMAL_CORRESPONDENCE_REQUIRED"])⟩

/-! ## Demands -/

/-- The demands that are visible. -/
def visibleDemands : List Record :=
  engine.demands.filter fun row => visibleDemand engine.context.visibility row

/-- `_demand`. -/
def demandOf (demandId : PyVal) : Option Record :=
  if demandId ∈ engine.context.visibility.visibleDemandIds.map .str then
    engine.demands.find? fun row => payloadField row "demand_id" .none = demandId
  else none

/-- The question of a demand is not current. -/
def questionNotCurrent (record : Record) : Bool :=
  !isText (payloadField record "research_question_status" .none) "CURRENT"

/-- The visible demands with a field, and a warning when the question of one is not current. -/
def demandsWith (key value : String) : Answer :=
  let rows := (visibleDemands engine).filter fun row => isText (payloadField row key .none) value
  ⟨ofRows rows, if rows.any questionNotCurrent then [py "DEMAND_QUESTION_NOT_CURRENT"] else []⟩

/-- `row["payload"][key]`. -/
def payloadAt (record : Record) (key : String) : Except QueryError PyVal := do
  let inner ← subscript record "payload"
  python (inner.subscript (py key))

/-- `sorted(set(v))`. -/
def sortedSetOf (v : PyVal) : Except QueryError PyVal := do
  let xs ← python (C2p.iterate v)
  if xs.all PyVal.hashable then
    if xs.all fun x => (textOf? x).isSome then
      return .list ((sortedSet (xs.filterMap textOf?)).map PyVal.str)
    else return .list (← python (P.sortValues xs.dedup))
  else throw (.python .typeError)

/-- A family that answers from one demand. -/
def fromDemand
    (view : Record → Except QueryError PyVal) : Except QueryError Answer := do
  match demandOf engine (param params "demand_id" .none) with
  | none => return ⟨.none, []⟩
  | some demand => return ⟨← view demand, []⟩

/-- `WHY_BLOCKED`. -/
def whyBlocked (demand : Record) : Except QueryError PyVal := do
  return object [("demand_id", ← payloadAt demand "demand_id"),
    ("status", ← payloadAt demand "status"),
    ("reason_codes", ← sortedSetOf P (param params "reason_codes" (.list [])))]

/-- `UNBLOCK_PATH`. -/
def unblockPath (demand : Record) : Except QueryError PyVal := do
  return object [("demand_id", ← payloadAt demand "demand_id"),
    ("required_evidence_refs",
      ← sortedSetOf P (param params "required_evidence_refs" (.list []))),
    ("advisory_only", .bool true)]

/-! ## Theory work -/

/-- `DEMAND_CLASSES`. -/
def demandClasses : List String :=
  ["METHOD_GAP", "INFORMATION_GAP", "DATA_GAP", "REPLICATION_NEED", "CONTRADICTION",
    "FORMALISATION_NEED", "ARCHITECTURE_NEED_HYPOTHESIS", "OTHER_GOVERNED"]

/-- `preference_order`. -/
def preferenceNames : List String := ["PREFERRED", "NORMAL", "DEFERRED_PREFERENCE"]

/-- The references are texts that are not empty, and there is one. -/
def checkAuthority (authorityRefs : PyVal) : Except QueryError (List PyStr) := do
  if !authorityRefs.truthy then
    throw (.demand "authority-aware selection requires explicit authority_refs")
  else
    let refs ← python (C2p.iterate authorityRefs)
    if refs.all fun ref => (nonEmptyText? ref).isSome then return refs.filterMap nonEmptyText?
    else throw (.demand "authority-aware selection requires explicit authority_refs")

/-- A preference is one of the three. -/
def checkPreference (value : PyVal) : Except QueryError Unit := do
  if ← python (inSet value (preferenceNames.map fun name => .str (py name))) then return ()
  else throw (.demand "preference classes must use the closed non-scalar vocabulary")

/-- A row of the recommendations. -/
structure Recommendation where
  demandId : PyVal
  demandClass : PyVal
  preferenceClass : PyVal
  reasonCodes : List PyStr
  classificationOwner : PyVal

/-- The rows and what was left out. -/
structure Selection where
  rows : List Recommendation
  excluded : List PyVal

/-- The reason codes of an eligibility state. -/
def reasonCodesOf (state : PyVal) : Except QueryError (List PyStr) :=
  match (state.get? (py "reason_codes")).getD .none with
  | .list codes =>
    if codes.all fun code => (nonEmptyText? code).isSome then
      .ok (codes.filterMap nonEmptyText?)
    else .error (.demand "eligibility reason trace missing")
  | _ => .error (.demand "eligibility reason trace missing")

/-- `eligibility.get(demand_id)`. -/
def eligibilityOf (eligibility demandId : PyVal) : Except QueryError PyVal :=
  match eligibility with
  | .dict items => python do
      let key ← C2p.keyOf P demandId
      return (Dict.get? items key).getD .none
  | _ => .error (.python .attributeError)

/-- `type(state.get("eligible")) is bool`, of a mapping. -/
def eligible? (state : PyVal) : Option Bool :=
  match state.get? (py "eligible") with
  | some (.bool b) => some b
  | _ => none

/-- One demand of `next_theory_work`. -/
def selectStep (eligibility : PyVal) (preferences : Dict PyKey PyVal) (selection : Selection)
    (record : Record) : Except QueryError Selection := do
  check (isText (field record "object_type" .none) "RESEARCH_DEMAND" ∧
    (field record "payload" .none).isMapping)
    (.demand "NEXT_THEORY_WORK accepts canonical ResearchDemand records only")
  let demandId := payloadField record "demand_id" .none
  let state ← eligibilityOf P eligibility demandId
  match eligible? state with
  | none => throw (.demand "explicit eligibility evidence missing")
  | some eligible =>
    let codes ← reasonCodesOf state
    if isText (payloadField record "status" .none) "OPEN" && eligible then
      let key ← python (C2p.keyOf P demandId)
      return { selection with
        rows := selection.rows ++ [⟨demandId, ← payloadAt record "demand_class",
          (preferences.get? key).getD (.str (py "NORMAL")), sortedSet codes,
          ← payloadAt record "classification_owner"⟩] }
    else
      return { selection with
        excluded := selection.excluded ++ [demandId] }

/-- The text of the id of a demand; the ids of visible demands are texts. -/
def idText (v : PyVal) : Except QueryError PyStr :=
  match v with
  | .str s => .ok s
  | _ => .error (.python .typeError)

/-- `class_order[demand_class]`. -/
def classOrder (demandClass : PyVal) : Except QueryError Nat :=
  if !demandClass.hashable then .error (.python .typeError)
  else if isText demandClass "METHOD_GAP" then .ok 0
  else if isText demandClass "ARCHITECTURE_NEED_HYPOTHESIS" then .ok 2
  else if demandClass ∈ demandClasses.map fun name => .str (py name) then .ok 1
  else .error (.python .keyError)

/-- A row with its place in the order. -/
def placed (row : Recommendation) : Except QueryError (Nat × Nat × PyStr × Recommendation) := do
  let order ← classOrder row.demandClass
  let preference := (preferenceNames.findIdx? fun name => isText row.preferenceClass name).getD 0
  return (order, preference, ← idText row.demandId, row)

/-- A row as it is returned. -/
def Recommendation.toValue (row : Recommendation) : PyVal :=
  object [("demand_id", row.demandId), ("demand_class", row.demandClass),
    ("preference_class", row.preferenceClass), ("reason_codes", .ofStrs row.reasonCodes),
    ("classification_owner", row.classificationOwner)]

/-- `next_theory_work`. -/
def nextTheoryWork (demandRecords : List Record)
    (eligibility authorityRefs preferenceClasses : PyVal) : Except QueryError PyVal := do
  let refs ← checkAuthority authorityRefs
  let preferences ← python (C2p.dictOf P
    (if preferenceClasses.truthy then preferenceClasses else .dict []))
  preferences.forM fun item => checkPreference item.2
  let selection ← demandRecords.foldlM (selectStep P eligibility preferences) ⟨[], []⟩
  let rows ← selection.rows.mapM placed
  let sorted := sortedBy (fun row => row.1) (sortedBy (fun row => row.2.1)
    (sortedBy (fun row => row.2.2.1) rows))
  let excluded ← selection.excluded.mapM idText
  return object [("schema", .str (py "ovc-p2cti-next-theory-work/v0.1")),
    ("recommendations", .list (sorted.map fun row => row.2.2.2.toValue)),
    ("excluded", .list ((sortedBy id excluded).map fun id => object [("demand_id", .str id),
      ("reason", .str (py "NOT_ELIGIBLE_OR_NOT_OPEN"))])),
    ("selection_order",
      .str (py "ELIGIBILITY_THEN_METHOD_GAP_ROUTE_THEN_NON_SCALAR_PREFERENCE_THEN_ID")),
    ("authority_refs", .ofStrs (sortedSet refs)), ("decision_bearing", .bool false),
    ("advisory_only", .bool true), ("theory_semantic_promotion", .bool false),
    ("execution_authority", .bool false), ("authority_effect", .str (py "NONE"))]

/-! ## Counts -/

/-- `dict(sorted(Counter(values).items()))`. -/
def counts (values : List PyVal) : Except QueryError PyVal := python do
  let keys ← values.mapM (C2p.keyOf P)
  let sorted ← sortItems (Dict.tally keys)
  return .dict (sorted.map fun item => (item.1, .int item.2))

/-- `PORTFOLIO_STATE`. -/
def portfolioState : Except QueryError Answer := do
  if !engine.context.visibility.allowAggregateCounts then
    return ⟨.none, [py "AGGREGATE_VISIBILITY_DENIED"]⟩
  else
    let entries ← comprehension (visibleEntry engine.context.visibility) engine.context.entries
    let demands := visibleDemands engine
    let classes ← entries.mapM fun entry => subscript entry "subject_class"
    let entryCounts ← counts P classes
    let classes ← demands.mapM fun row => payloadAt row "demand_class"
    let classCounts ← counts P classes
    let states ← demands.mapM fun row => payloadAt row "status"
    let statusCounts ← counts P states
    return ⟨object [("entry_class_counts", entryCounts), ("demand_class_counts", classCounts),
      ("demand_status_counts", statusCounts), ("composite_score", .none),
      ("dimensions_separate", .bool true)], []⟩

/-! ## Queries -/

/-- `QUERY_FAMILIES`. -/
inductive Family where
  | search | getTheory | whyHere | currentState | history | relations | duplicateScreen
  | openDemand | whyBlocked | unblockPath | nextTheoryWork | architectureNeed | crossMode
  | portfolioState
  deriving DecidableEq

namespace Family

/-- The name of a family. -/
def text : Family → PyStr
  | search => py "SEARCH"
  | getTheory => py "GET_THEORY"
  | whyHere => py "WHY_HERE"
  | currentState => py "CURRENT_STATE"
  | history => py "HISTORY"
  | relations => py "RELATIONS"
  | duplicateScreen => py "DUPLICATE_SCREEN"
  | openDemand => py "OPEN_DEMAND"
  | whyBlocked => py "WHY_BLOCKED"
  | unblockPath => py "UNBLOCK_PATH"
  | nextTheoryWork => py "NEXT_THEORY_WORK"
  | architectureNeed => py "ARCHITECTURE_NEED"
  | crossMode => py "CROSS_MODE"
  | portfolioState => py "PORTFOLIO_STATE"

/-- All families. -/
def all : List Family :=
  [search, getTheory, whyHere, currentState, history, relations, duplicateScreen, openDemand,
    whyBlocked, unblockPath, nextTheoryWork, architectureNeed, crossMode, portfolioState]

end Family

/-- The result of a family that is allowed, and its warnings. -/
def answer (engine : Engine) (params : Record) : Family → Except QueryError Answer
  | .search => search casefold engine.context params
  | .getTheory => fromEntry engine.context params getTheory
  | .whyHere => fromEntry engine.context params whyHere
  | .currentState => fromEntry engine.context params currentState
  | .history => historyOf engine.context
  | .relations => relationsOf engine params
  | .duplicateScreen => duplicateScreen engine params
  | .openDemand => .ok (demandsWith engine "status" "OPEN")
  | .whyBlocked => fromDemand engine params (whyBlocked P params)
  | .unblockPath => fromDemand engine params (unblockPath P params)
  | .nextTheoryWork => do
    let result ← nextTheoryWork P (visibleDemands engine) (param params "eligibility" (.dict []))
      (param params "authority_refs" (.list [])) (param params "preference_classes" .none)
    return ⟨result, []⟩
  | .architectureNeed => .ok (demandsWith engine "demand_class" "ARCHITECTURE_NEED_HYPOTHESIS")
  | .crossMode => crossMode engine
  | .portfolioState => portfolioState P engine

/-- **`query`.** -/
def query (engine : Engine) (family : PyStr) (params : Record) : Except QueryError Envelope :=
  match Family.all.find? fun f => f.text = family with
  | none => .error (.query "unknown query family")
  | some f =>
    if family ∈ engine.context.visibility.allowedQueryFamilies then do
      let answered ← answer P casefold engine params f
      return envelope engine.context family answered.result answered.warnings
    else .ok (envelope engine.context family .none [py "VISIBILITY_DENIED"])

/-! ## The engine -/

/-- A member of the key that sorts the records: `str(record.get(key, ""))`. -/
def keyPart (v : Option PyVal) : Except QueryError PyStr := python ((v.getD (.str [])).strOf P)

/-- The sides of a relation, which are mappings. -/
def sideOf (record : Record) (key : String) : Except QueryError PyVal := do
  let side ← python ((payload record).getOr (py key) (.dict []))
  check (side.isMapping) (.python .attributeError)
  return side

/-- `_canonical_record_key`. -/
def canonicalRecordKey (record : Record) : Except QueryError (List PyStr) := do
  let left ← sideOf record "left_generation_ref"
  let right ← sideOf record "right_generation_ref"
  let identity := if (recordId record).truthy then some (recordId record)
    else (payload record).get? (py "demand_id")
  [record.get? (py "object_type"), (payload record).get? (py "relation_family"),
    (payload record).get? (py "relation_type"), left.get? (py "object_id"),
    left.get? (py "semantic_generation"), right.get? (py "object_id"),
    right.get? (py "semantic_generation"), identity, record.get? (py "record_id"),
    record.get? (py "content_sha256")].mapM (keyPart P)

/-- A record of the frontier of the generation, whose content has the hash it states. -/
def checkRecord (frontierId : PyStr) (record : Record) : Except QueryError Unit := do
  check (field record "source_frontier_id" .none = .str frontierId)
    (.query "collections contain stale or malformed records")
  let sha ← python (canonicalSha256 P
    (.ofRecord (record.filter fun p => p.1 ≠ py "content_sha256")))
  check (field record "content_sha256" .none = .str sha) (.query "record content hash mismatch")

/-- A collection in the order of its keys. -/
def sortedRecords (records : List Record) : Except QueryError (List Record) := do
  let keyed ← records.mapM fun record => (canonicalRecordKey P record).map fun key => (key, record)
  return (sortedBy Prod.fst keyed).map Prod.snd

/-- **The constructor**, for a context that was checked. -/
def Engine.build (context : Context) (relations screens demands : List Record) :
    Except QueryError Engine := do
  let relations ← sortedRecords P relations
  let screens ← sortedRecords P screens
  let demands ← sortedRecords P demands
  relations.forM (checkRecord P context.sourceFrontierId)
  screens.forM (checkRecord P context.sourceFrontierId)
  demands.forM (checkRecord P context.sourceFrontierId)
  return ⟨context, relations, screens, demands⟩

end OvcReplay.P2cti
