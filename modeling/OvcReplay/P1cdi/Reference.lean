import OvcReplay.P1cdi.Identity

/-! # Series and generations

`reference.py` of P1CDI: the records of an identity bundle, their validation, the reconciliation of
the bundles that exist, and `assign_series_generation`, which finds a known distinction again or
makes a new generation of it. -/

namespace OvcReplay.P1cdi

open Python Json

variable (P : Platform)

/-- `ReferenceEngineError` with its message, or an exception that escapes. -/
inductive Error where
  | python (e : PyError)
  | reference (message : PyStr)
  deriving DecidableEq, Repr

/-! ## Records -/

/-- `P1EmpiricalDistinctionSeries`: a record with exactly the fields of `_SERIES_FIELDS`. -/
structure Series where
  recordType : PyVal
  schemaVersion : PyVal
  authorityEffect : PyVal
  seriesId : PyVal
  firstGenerationId : PyVal
  predecessorSeriesRefs : PyVal
  deriving DecidableEq

/-- `P1EmpiricalDistinctionGeneration`: a record with exactly the fields of `_GENERATION_FIELDS`. -/
structure Generation where
  recordType : PyVal
  schemaVersion : PyVal
  authorityEffect : PyVal
  generationId : PyVal
  seriesId : PyVal
  profileId : PyVal
  projectionSha256 : PyVal
  sourceFirstValidTime : PyVal
  immutable : PyVal
  deriving DecidableEq

/-- An identity bundle. -/
structure Bundle where
  series : Series
  generation : Generation
  projection : Projection
  deriving DecidableEq

/-- The series as a dictionary. -/
def Series.toRecord (s : Series) : Record :=
  [(py "record_type", s.recordType), (py "schema_version", s.schemaVersion),
    (py "authority_effect", s.authorityEffect), (py "series_id", s.seriesId),
    (py "first_generation_id", s.firstGenerationId),
    (py "predecessor_series_refs", s.predecessorSeriesRefs)]

/-- The generation as a dictionary. -/
def Generation.toRecord (g : Generation) : Record :=
  [(py "record_type", g.recordType), (py "schema_version", g.schemaVersion),
    (py "authority_effect", g.authorityEffect), (py "generation_id", g.generationId),
    (py "series_id", g.seriesId), (py "profile_id", g.profileId),
    (py "projection_sha256", g.projectionSha256),
    (py "source_first_valid_time", g.sourceFirstValidTime), (py "immutable", g.immutable)]

/-- The projection as a dictionary. -/
def Projection.toRecord (p : Projection) : Record :=
  [(py "record_type", p.recordType), (py "schema_version", p.schemaVersion),
    (py "authority_effect", p.authorityEffect), (py "generation_id", p.generationId),
    (py "profile_id", p.profileId), (py "owner_semantic_binding", p.ownerSemanticBinding),
    (py "identity_fields", p.identityFields), (py "projection_sha256", p.projectionSha256)]

/-- The bundle as a dictionary. -/
def Bundle.toRecord (b : Bundle) : Record :=
  [(py "series", .ofRecord b.series.toRecord), (py "generation", .ofRecord b.generation.toRecord),
    (py "projection", .ofRecord b.projection.toRecord)]

/-! ## Checks -/

/-- `raise ReferenceEngineError(message)` unless the condition holds. -/
def require (condition : Prop) [Decidable condition] (message : String) : Except Error Unit :=
  check condition (.reference (py message))

/-- `_require_string`. -/
def requireString (value : PyVal) (field : String) : Except Error PyStr :=
  match value with
  | .str [] => .error (.reference (py field ++ py " must be a non-empty string"))
  | .str s => .ok s
  | _ => .error (.reference (py field ++ py " must be a non-empty string"))

/-- `text.replace("Z", "+00:00")`. -/
def replaceZ (text : PyStr) : PyStr :=
  text.flatMap fun c => if c.val = 90 then py "+00:00" else [c]

/-- `_parse_time`. -/
def parseTime (value : PyVal) (field : String) : Except Error Datetime := do
  let text ← requireString value field
  match P.fromIsoFormat (replaceZ text) with
  | none => .error (.reference (py field ++ py " must be an ISO date-time"))
  | some parsed =>
    if parsed.utcOffset = none then
      .error (.reference (py field ++ py " must include a timezone"))
    else .ok parsed

/-- `except (TypeError, ValueError)` around the canonical bytes of a record. -/
def nonCanonical (e : PyError) : Error :=
  if e.isTypeOrValueError then .reference (py "record content is not canonical JSON") else .python e

/-- `_canonical_bytes`. -/
def canonicalBytes (r : Record) : Except Error PyStr :=
  (canonicalJsonBytes P (.ofRecord r)).mapError nonCanonical

/-- `except ValueError`, with the message of what is raised instead. -/
def onValueError (message : String) (e : PyError) : Error :=
  if isValueError e then .reference (py message) else .python e

/-- The id of the series whose first generation has this owner and projection. -/
def seriesIdOf (owner : PyVal) (projectionSha256 : PyVal) : Except PyError PyStr :=
  (canonicalSha256 P (.ofRecord [(py "owner", owner),
    (py "projection_sha256", projectionSha256)])).map fun h => py "p1:series:" ++ h

/-- The id of a generation. -/
def generationIdOf (seriesId projectionSha256 sourceFirstValidTime : PyVal) : Except PyError PyStr :=
  (canonicalSha256 P (.ofRecord [(py "series_id", seriesId),
    (py "projection_sha256", projectionSha256),
    (py "source_first_valid_time", sourceFirstValidTime)])).map fun h => py "p1:generation:" ++ h

/-- `_validate_projection`. -/
def validateProjection (record : Projection) : Except Error Projection := do
  require (record.recordType = .str (py "P1DistinctionSemanticProjection"))
    "semantic projection record type is invalid"
  require (record.schemaVersion = .str (py "0.1") ∧ record.authorityEffect = .str (py "NONE"))
    "semantic projection schema or authority is invalid"
  require (record.profileId = .str profileId) "semantic projection profile is invalid"
  let generationId ← requireString record.generationId "generation_id"
  let rebuilt ← (buildSemanticProjection P generationId record.ownerSemanticBinding
    record.identityFields).mapError
      (onValueError "semantic projection cannot be canonically rebuilt")
  let recordBytes ← canonicalBytes P record.toRecord
  let rebuiltBytes ← canonicalBytes P rebuilt.toRecord
  require (recordBytes = rebuiltBytes)
    "semantic projection differs from authoritative canonical reconstruction"
  return rebuilt

/-- `type(ref) is str and ref`. -/
def isFilledText : PyVal → Bool
  | .str s => decide (s ≠ [])
  | _ => false

/-- The refs are distinct texts that are not empty. -/
def predecessorRefsOk : PyVal → Bool
  | .list refs => refs.all isFilledText && decide refs.Nodup
  | _ => false

/-- The id of a series, at its first generation. -/
def checkRoot (series : Series) (seriesId generationId : PyStr) (projection : Projection)
    (actualSha : PyStr) : Except Error Unit :=
  if series.firstGenerationId = .str generationId then do
    let expected ← (seriesIdOf P projection.ownerSemanticBinding (.str actualSha)).mapError .python
    require (seriesId = expected) "historical first-generation series binding mismatch"
  else .ok ()

/-- `_identity_bundle`. -/
def identityBundle (entry : Bundle) : Except Error Bundle := do
  let series := entry.series
  let generation := entry.generation
  require (series.recordType = .str (py "P1EmpiricalDistinctionSeries"))
    "identity bundle series type is invalid"
  require (generation.recordType = .str (py "P1EmpiricalDistinctionGeneration"))
    "identity bundle generation type is invalid"
  require (entry.projection.recordType = .str (py "P1DistinctionSemanticProjection"))
    "identity bundle projection type is invalid"
  require (series.schemaVersion = .str (py "0.1") ∧ generation.schemaVersion = .str (py "0.1") ∧
    entry.projection.schemaVersion = .str (py "0.1")) "identity bundle schema version is invalid"
  require (series.authorityEffect = .str (py "NONE") ∧
    generation.authorityEffect = .str (py "NONE") ∧
    entry.projection.authorityEffect = .str (py "NONE"))
    "identity bundle authority must remain NONE"
  require (generation.profileId = .str profileId ∧ entry.projection.profileId = .str profileId)
    "identity bundle semantic profile is invalid"
  let projection ← validateProjection P entry.projection
  let seriesId ← requireString series.seriesId "series_id"
  let generationId ← requireString generation.generationId "generation_id"
  let _ ← requireString series.firstGenerationId "first_generation_id"
  require (predecessorRefsOk series.predecessorSeriesRefs = true)
    "predecessor series refs must be exact unique strings"
  require (generation.seriesId = series.seriesId) "generation is not bound to its series"
  require (projection.generationId = generation.generationId)
    "projection is not bound to its generation"
  require (projection.projectionSha256 = generation.projectionSha256)
    "generation does not bind exact projection hash"
  require (generation.immutable = .bool true) "P1CDI generations must be immutable"
  let bytes ← (projectionBytes P projection).mapError
    (onValueError "historical projection is not canonical")
  let actualSha := sha256Hex P bytes
  require (projection.projectionSha256 = .str actualSha)
    "historical projection content/hash mismatch"
  let time ← requireString generation.sourceFirstValidTime "source_first_valid_time"
  let _ ← parseTime P (.str time) "source_first_valid_time"
  let expectedGeneration ← (generationIdOf P (.str seriesId) (.str actualSha)
    (.str time)).mapError .python
  require (generationId = expectedGeneration) "historical generation ID/content binding mismatch"
  checkRoot P series seriesId generationId projection actualSha
  return ⟨series, generation, projection⟩

/-! ## Reconciliation -/

/-- The text of a checked id. -/
def textOf : PyVal → PyStr
  | .str s => s
  | _ => []

/-- `generation["generation_id"]` of a checked bundle. -/
def Bundle.generationId (b : Bundle) : PyStr := textOf b.generation.generationId

/-- `series["series_id"]` of a checked bundle. -/
def Bundle.seriesId (b : Bundle) : PyStr := textOf b.series.seriesId

/-- `by_generation` and `series_bytes`. -/
structure Reconciling where
  byGeneration : Dict PyStr (PyStr × Bundle)
  seriesBytes : Dict PyStr PyStr

/-- `d.setdefault(key, value)`. -/
def setDefault {β : Type} (d : Dict PyStr β) (key : PyStr) (value : β) : Dict PyStr β :=
  if (d.get? key).isSome then d else d.set key value

/-- One bundle of `_reconcile_identity_bundles`. -/
def reconcileStep (state : Reconciling) (bundle : Bundle) : Except Error Reconciling := do
  let bundleBytes ← canonicalBytes P bundle.toRecord
  let prior := state.byGeneration.get? bundle.generationId
  require (∀ known, prior = some known → known.1 = bundleBytes)
    "same generation identity has conflicting canonical bundle content"
  let observed ← canonicalBytes P bundle.series.toRecord
  let priorSeries := state.seriesBytes.get? bundle.seriesId
  require (∀ known, priorSeries = some known → known = observed)
    "same series identity has conflicting canonical series content"
  return ⟨setDefault state.byGeneration bundle.generationId (bundleBytes, bundle),
    setDefault state.seriesBytes bundle.seriesId observed⟩

/-- The first generation of a bundle's series. -/
def checkFirst (reconciled : List Bundle) (bundle : Bundle) : Except Error Unit := do
  match reconciled.find? fun b => b.generation.generationId = bundle.series.firstGenerationId with
  | none =>
    .error (.reference (py "series first-generation binding is unavailable or unverifiable"))
  | some first =>
    require (first.series.seriesId = bundle.series.seriesId ∧
      first.generation.seriesId = bundle.series.seriesId)
      "series first-generation binding crosses series identity"
    let expected ← (seriesIdOf P first.projection.ownerSemanticBinding
      first.projection.projectionSha256).mapError .python
    require (bundle.series.seriesId = .str expected)
      "series first-generation deterministic identity mismatch"

/-- The reconciled bundles in the order of their generation ids. -/
def inIdOrder (byGeneration : Dict PyStr (PyStr × Bundle)) : List Bundle :=
  (sortedBy Prod.fst byGeneration).map fun item => item.2.2

/-- `_reconcile_identity_bundles`. -/
def reconcileIdentityBundles (existing : List Bundle) : Except Error (List Bundle) := do
  let validated ← existing.mapM (identityBundle P)
  let state ← validated.foldlM (reconcileStep P) ⟨[], []⟩
  let reconciled := inIdOrder state.byGeneration
  forM reconciled (checkFirst P reconciled)
  return reconciled

/-! ## Assignment -/

/-- What a caller of `assign_series_generation` asks for. -/
structure AssignCall where
  ownerSemanticBinding : PyVal
  identityFields : PyVal
  sourceFirstValidTime : PyVal
  predecessorGenerationId : PyVal := .none
  sourceExplicitSuccessorRef : PyVal := .none

/-- `resolution`. -/
inductive AssignResolution where
  | exactRediscovery
  | semanticSuccessor
  | newSeries
  deriving DecidableEq, Repr

/-- What `assign_series_generation` returns. -/
structure Assignment where
  resolution : AssignResolution
  bundle : Bundle
  created : Bool
  predecessorGenerationId : PyVal
  sourceExplicitSuccessorRef : Option PyVal
  deriving DecidableEq

/-- The generation with this id. -/
def generationRecord (generationId seriesId projectionSha256 time : PyVal) : Generation :=
  { recordType := .str (py "P1EmpiricalDistinctionGeneration")
    schemaVersion := .str (py "0.1")
    authorityEffect := .str (py "NONE")
    generationId := generationId
    seriesId := seriesId
    profileId := .str profileId
    projectionSha256 := projectionSha256
    sourceFirstValidTime := time
    immutable := .bool true }

/-- The series that starts with this generation. -/
def seriesRecord (seriesId firstGenerationId : PyVal) : Series :=
  { recordType := .str (py "P1EmpiricalDistinctionSeries")
    schemaVersion := .str (py "0.1")
    authorityEffect := .str (py "NONE")
    seriesId := seriesId
    firstGenerationId := firstGenerationId
    predecessorSeriesRefs := .list [] }

variable (call : AssignCall)

/-- The series of a successor, once its predecessor is known and earlier. -/
def predecessorSeries (time : Datetime) (bundles : List Bundle) :
    Except Error Series := do
  let _ ← requireString call.predecessorGenerationId "predecessor_generation_id"
  match bundles.filter fun b => b.generation.generationId = call.predecessorGenerationId with
  | [predecessor] => do
    let _ ← requireString call.sourceExplicitSuccessorRef "source_explicit_successor_ref"
    let before ← parseTime P predecessor.generation.sourceFirstValidTime
      "predecessor.source_first_valid_time"
    require (before.instant < time.instant)
      "semantic successor source_first_valid_time must move strictly forward"
    return predecessor.series
  | _ => .error (.reference (py "semantic successor requires one exact predecessor generation"))

variable (candidate : Projection)

/-- The id of the predecessor's series, or of a series of its own. -/
def seriesIdFor : Option Series → Except PyError PyVal
  | some known => .ok known.seriesId
  | none => (seriesIdOf P call.ownerSemanticBinding candidate.projectionSha256).map PyVal.str

/-- A new generation, of the series of its predecessor or of a series of its own. -/
def createGeneration (series : Option Series) :
    Except Error Assignment := do
  let seriesId ← (seriesIdFor P call candidate series).mapError .python
  let generationId ← (generationIdOf P seriesId candidate.projectionSha256
    call.sourceFirstValidTime).mapError .python
  let projection ← (buildSemanticProjection P generationId call.ownerSemanticBinding
    call.identityFields).mapError .python
  return {
    resolution := if series.isSome then .semanticSuccessor else .newSeries
    bundle := ⟨series.getD (seriesRecord seriesId (.str generationId)),
      generationRecord (.str generationId) seriesId candidate.projectionSha256
        call.sourceFirstValidTime, projection⟩
    created := true
    predecessorGenerationId := call.predecessorGenerationId
    sourceExplicitSuccessorRef := some call.sourceExplicitSuccessorRef }

/-- The bundles with exactly the candidate's identity. -/
def exactBundles (bundles : List Bundle) :
    Except Error (List Bundle) := do
  let compared ← bundles.mapM fun b =>
    ((exactSemanticEqual P candidate b.projection).mapError Error.python).map fun same => (b, same)
  return (compared.filter Prod.snd).map Prod.fst

/-- What is assigned over the reconciled bundles. -/
def resolveCandidate (time : Datetime) (candidate : Projection)
    (bundles : List Bundle) : Except Error Assignment := do
  let exact ← exactBundles P candidate bundles
  require ((exact.map fun b => b.generation.generationId).dedup.length ≤ 1)
    "exact semantic identity resolves to multiple generations"
  match exact with
  | known :: _ =>
    .ok { resolution := .exactRediscovery, bundle := known, created := false
          predecessorGenerationId := .none, sourceExplicitSuccessorRef := none }
  | [] =>
    if call.predecessorGenerationId ≠ .none then do
      let series ← predecessorSeries P call time bundles
      createGeneration P call candidate (some series)
    else do
      require (call.sourceExplicitSuccessorRef = .none)
        "successor source ref requires a predecessor"
      createGeneration P call candidate none

/-- `assign_series_generation`. -/
def assignSeriesGeneration (existing : List Bundle) :
    Except Error Assignment := do
  let _ ← requireString call.ownerSemanticBinding "owner_semantic_binding"
  let time ← parseTime P call.sourceFirstValidTime "source_first_valid_time"
  let candidate ← (buildSemanticProjection P (py "p1:candidate:unassigned")
    call.ownerSemanticBinding call.identityFields).mapError .python
  let bundles ← reconcileIdentityBundles P existing
  resolveCandidate P call time candidate bundles

end OvcReplay.P1cdi
