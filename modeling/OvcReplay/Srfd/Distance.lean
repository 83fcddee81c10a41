import OvcReplay.Srfd.CanonicalParts
import OvcReplay.Json.Loads
import OvcReplay.Python.Equal
import OvcReplay.Python.Quantize

/-! # Distances between representations

`compute_distance` of `distance.py`, in exact arithmetic. The pair of two records has one id, and
the distance is one of four methods. Whether the order of the records matters depends on what is
read of them: the id takes the comparability domain of the left one first, and where both cannot be
read the error is that of the left one. -/

namespace OvcReplay.Srfd.Distance

open Python Json

/-- `DistanceError`, or an exception that passes through. -/
inductive DistanceError where
  | distance (reasonCode detail : PyStr)
  | other (e : Error)
  deriving DecidableEq, Repr

/-! ## Specifications and records -/

/-- `method`. -/
inductive Method where
  | l1Typed
  | l2Typed
  | gowerMixed
  | dtwSequence
  deriving DecidableEq, Repr

/-- The text of a method. -/
def Method.text : Method → PyStr
  | .l1Typed => py "L1_TYPED"
  | .l2Typed => py "L2_TYPED"
  | .gowerMixed => py "GOWER_MIXED"
  | .dtwSequence => py "DTW_SEQUENCE"

/-- **`DistanceSpec`**, with what `__post_init__` demands. -/
structure DistanceSpec where
  distanceSpecId : PyStr
  method : Method
  fields : List PyStr
  weights : Option (Dict PyStr PyStr)
  precisionPlaces : Nat
  exact : Bool
  distanceSpecId_ne : distanceSpecId ≠ []
  fields_ne : method ≠ .dtwSequence → fields ≠ []

/-- **A record** as `compute_distance` reads it: a field that is absent is `None`. Its data are
plain: no sets, and each key of a dictionary once. -/
structure Representation where
  representationId : PyStr
  comparabilityDomainId : Option PyStr
  orderingSemantics : Option PyStr
  missingness : PyVal
  structuralRaw : PyVal
  structuralDerived : PyVal
  structuralNormalized : PyVal
  comparisonOnly : PyVal
  built : ∀ v ∈ [structuralRaw, structuralDerived, structuralNormalized, comparisonOnly], v.Built
  setFree : ∀ v ∈ [structuralRaw, structuralDerived, structuralNormalized, comparisonOnly],
    v.SetFree

/-- The namespaces, in the order in which they are read. -/
def Representation.namespaces (record : Representation) : List PyVal :=
  [record.structuralRaw, record.structuralDerived, record.structuralNormalized,
    record.comparisonOnly]

variable (P : Platform)

variable (spec : DistanceSpec)

/-- `logical_hash`. -/
def DistanceSpec.logicalHash : Except Error PyStr :=
  logicalSha256 P (.ofRecord
    [(py "distance_spec_id", .str spec.distanceSpecId),
      (py "method", .str spec.method.text),
      (py "fields", .ofStrs spec.fields),
      (py "weights", .ofRecord ((spec.weights.getD []).map fun p => (p.1, .str p.2))),
      (py "precision_places", .int spec.precisionPlaces),
      (py "exact", .bool spec.exact)])

/-! ## Compatibility and pairs -/

variable (left right : Representation)

/-- `compatibility`: the reason why two records are not comparable. -/
def incompatibility : Option PyStr :=
  if left.comparabilityDomainId ≠ right.comparabilityDomainId then
    some (py "COMP_DOMAIN_INCOMPATIBLE")
  else if left.orderingSemantics ≠ right.orderingSemantics then
    some (py "COMP_ORDERING_INCOMPATIBLE")
  else if left.missingness.truthy ∨ right.missingness.truthy then
    some (py "COMP_REQUIRED_DIMENSION_MISSING")
  else none

/-- `str(left.get(…) or right.get(…) or "")` of the comparability domains. -/
def domainText : PyStr :=
  if left.comparabilityDomainId.getD [] ≠ [] then left.comparabilityDomainId.getD []
  else right.comparabilityDomainId.getD []

/-- The payload of a pair id: the texts that it is taken of. -/
def pairTexts (leftId rightId hash domain : PyStr) : List (PyStr × PyStr) :=
  let endpoints := sortedBy id [leftId, rightId]
  [(py "left_id", endpoints.getD 0 []),
    (py "right_id", endpoints.getD 1 []),
    (py "distance_spec_hash", hash),
    (py "comparability_domain_id", domain)]

/-- A record of texts. -/
def textRecord (texts : List (PyStr × PyStr)) : Record := texts.map fun p => (p.1, .str p.2)

/-- `deterministic_pair_id`. -/
def deterministicPairId (leftId rightId : PyStr) (spec : DistanceSpec) (domain : PyStr) :
    Except DistanceError PyStr := do
  check (leftId ≠ rightId)
    (.distance (py "DIST_INVALID_PARAMETER") (py "self-pair is not a benchmark pair"))
  let hash ← (spec.logicalHash P).mapError .other
  (stableId P "SRFD.PAIR." (textRecord (pairTexts leftId rightId hash domain))).mapError .other

/-! ## Reading numbers -/

/-- `_decimal`, and the number that it is. -/
def decimal (value : PyVal) (field : PyStr) : Except DistanceError Rat :=
  let notNumeric := DistanceError.distance (py "DIST_NONFINITE_RESULT")
    (field ++ py " is not numeric")
  match PyVal.strOf P value with
  | .ok text =>
    match P.decimalOf text with
    | some d =>
      match d.finite? with
      | some x => .ok x
      | none => .error (.distance (py "DIST_NONFINITE_RESULT") (field ++ py " is non-finite"))
    | none => .error notNumeric
  -- of plain data `str` raises only a `ValueError`, for an integer with too many digits
  | .error _ => .error notNumeric

/-- The items of a mapping; what is no mapping is passed over. -/
def itemsOf : PyVal → List (PyKey × PyVal)
  | .dict items => items
  | _ => []

/-- `combined.setdefault(str(key), value)`. -/
def setDefault (combined : Record) (item : PyKey × PyVal) : Except DistanceError Record := do
  let key ← item.1.strOf.mapError fun e => .other (.python e)
  return if (combined.get? key).isSome then combined else combined.set key item.2

/-- The value of a field, `None` when it is absent. -/
def valueAt (values : Record) (field : PyStr) : PyVal := (values.get? field).getD .none

/-- `_static_values`; the fields are read from the combined namespaces. -/
def staticValues (record : Representation) (fields : List PyStr) : Except DistanceError Record := do
  let combined ← (record.namespaces.flatMap itemsOf).foldlM setDefault []
  let missing := fields.filter fun field => valueAt combined field = .none
  check (missing = [])
    (.distance (py "COMP_REQUIRED_DIMENSION_MISSING") ((py ",").intercalate missing))
  return combined

/-- `_weight`. -/
def weight (field : PyStr) : Except DistanceError Rat := do
  let raw := (Dict.get? (spec.weights.getD []) field).getD (py "1")
  let value ← decimal P (.str raw) (py "weight." ++ field)
  check (0 < value) (.distance (py "DIST_INVALID_PARAMETER")
    (py "weight." ++ field ++ py " must be positive"))
  return value

/-! ## The distances -/

/-- A distance, or the square of one. -/
inductive Value where
  | rational (x : Rat)
  | root (x : Rat)

/-- The absolute difference of two values. -/
def difference (left right : PyVal) (field : PyStr) : Except DistanceError Rat := do
  let x ← decimal P left field
  let y ← decimal P right field
  return |x - y|

/-- The weight and the difference of a field. -/
def weighted (left right : Record) (field : PyStr) :
    Except DistanceError (Rat × Rat) := do
  let w ← weight P spec field
  let delta ← difference P (valueAt left field) (valueAt right field) field
  return (w, delta)

/-- The score of a field: what is not numeric is compared as a category. -/
def score (left right : Record) (field : PyStr) : Except DistanceError Rat :=
  match difference P (valueAt left field) (valueAt right field) field with
  | .error (.distance _ _) =>
    .ok (if (valueAt left field).pyEq (valueAt right field) then 0 else 1)
  | r => r

/-- `_static_distance`, behind the reading of the records. -/
def staticDistance (left right : Record) : Except DistanceError Value :=
  match spec.method with
  | .l1Typed => do
    let ws ← spec.fields.mapM (weighted P spec left right)
    return .rational ((ws.map fun p => p.1 * p.2).sum / (ws.map Prod.fst).sum)
  | .l2Typed => do
    let ws ← spec.fields.mapM (weighted P spec left right)
    return .root ((ws.map fun p => p.1 * p.2 * p.2).sum / (ws.map Prod.fst).sum)
  | _ => do
    let scores ← spec.fields.mapM (score P left right)
    return .rational (scores.sum / scores.length)

/-! ## Dynamic time warping -/

/-- The elements of a sequence that is no text. -/
def elementsOf : PyVal → List PyVal
  | .list xs => xs
  | .tuple xs => xs
  | _ => []

/-- `isinstance(value, (int, float, Decimal, str))`. -/
def isNumeric : PyVal → Bool
  | .bool _ | .int _ | .float _ | .decimal _ | .str _ => true
  | _ => false

/-- The number of an element: a mapping carries it in its only numeric channel. -/
def element (index : Nat) (item : PyVal) : Except DistanceError Rat := do
  let field := py "sequence[" ++ natText index ++ py "]"
  match item with
  | .dict items =>
    match (items.map Prod.snd).filter isNumeric with
    | [value] => decimal P value field
    | _ => .error (.distance (py "DIST_INVALID_PARAMETER")
        (py "DTW fixture sequence entries must carry one numeric channel"))
  | value => decimal P value field

/-- `_sequence_values`. -/
def sequenceValues (record : Representation) : Except DistanceError (List Rat) := do
  let sequence := elementsOf ((record.structuralDerived.get? (py "ordered_sequence")).getD .none)
  check (sequence ≠ [])
    (.distance (py "COMP_REQUIRED_DIMENSION_MISSING") (py "ordered_sequence required"))
  sequence.zipIdx.mapM fun p => element P p.2 p.1

/-- One row of the table behind another: `previous` and `current` are read from left to right. -/
def nextCells (x : Rat) : WithTop Rat → List (WithTop Rat) → List Rat → List (WithTop Rat)
  | last, diagonal :: above :: previous, y :: ys =>
    let cell := ((|x - y| : Rat) : WithTop Rat) + min last (min above diagonal)
    cell :: nextCells x cell (above :: previous) ys
  | _, _, _ => []

/-- The row of an element, behind the row of the element before. -/
def nextRow (ys : List Rat) (previous : List (WithTop Rat)) (x : Rat) : List (WithTop Rat) :=
  ⊤ :: nextCells x ⊤ previous ys

/-- The row before the first element. -/
def firstRow (ys : List Rat) : List (WithTop Rat) := 0 :: List.replicate ys.length ⊤

/-- `_dtw`, behind the reading of the sequences. -/
def dtw (xs ys : List Rat) : Rat :=
  ((xs.foldl (nextRow ys) (firstRow ys)).getD ys.length ⊤).untopD 0 / max xs.length ys.length

/-! ## The document -/

/-- The number of units of the last place, rounded half to even. -/
def units (places : Nat) : Value → Nat
  | .rational x =>
    let scaled := x * 10 ^ places
    let n := ⌊scaled⌋₊
    if scaled < n + 1 / 2 ∨ scaled = n + 1 / 2 ∧ n % 2 = 0 then n else n + 1
  | .root x =>
    let scaled := x * 100 ^ places
    let n := Nat.sqrt ⌊scaled⌋₊
    let half : Rat := (n + 1 / 2) * (n + 1 / 2)
    if scaled < half ∨ scaled = half ∧ n % 2 = 0 then n else n + 1

/-- `format(value.quantize(Decimal(1).scaleb(-places)), "f")`. -/
def formatted (places : Nat) (value : Value) : Except DistanceError PyStr := do
  let _ ← (PyDecimal.scaleOne (-places)).mapError fun e => .other (.python e)
  check (units places value < 10 ^ PyDecimal.precision) (.other (.python .arithmeticError))
  return (PyDecimal.finite false (units places value) (-places)).formatF

/-- What `compute_distance` returns. -/
structure Document where
  pairId : PyStr
  distanceSpecId : PyStr
  status : PyStr
  reasonCode : Option PyStr
  distance : Option PyStr
  computeInvoked : Bool
  /-- Absent where nothing was computed. -/
  exact : Option Bool
  authorityState : PyStr
  deriving DecidableEq, Repr

/-- The distance of two comparable records. -/
def distanceValue (spec : DistanceSpec) : Except DistanceError Value :=
  if spec.method = .dtwSequence then do
    let xs ← sequenceValues P left
    let ys ← sequenceValues P right
    return .rational (dtw xs ys)
  else do
    let lvals ← staticValues left spec.fields
    let rvals ← staticValues right spec.fields
    staticDistance P spec lvals rvals

/-- **`compute_distance`.** -/
def computeDistance (spec : DistanceSpec) :
    Except DistanceError Document := do
  let reason := incompatibility left right
  check (left.representationId ≠ [] ∧ right.representationId ≠ [])
    (.distance (py "QA_SCHEMA_FAILURE") (py "representation_id required"))
  let pairId ← deterministicPairId P left.representationId right.representationId spec
    (domainText left right)
  if reason.isSome then
    return ⟨pairId, spec.distanceSpecId, py "NOT_COMPARABLE", reason, none, false, none,
      py "FIXTURE_ONLY"⟩
  else do
    let value ← distanceValue P left right spec
    let rounded ← formatted spec.precisionPlaces value
    return ⟨pairId, spec.distanceSpecId, py "COMPUTED", none, some rounded, true, some spec.exact,
      py "FIXTURE_ONLY"⟩

end OvcReplay.Srfd.Distance
