import OvcReplay.SharedSystems.NumberText
import OvcReplay.Python.Context
import OvcReplay.Json.Dumps

/-! # The two encoders of canonical JSON

`canonical.py` and `canonical_reference.py`: two encoders that were written one without the other.
Keys of objects are sorted, numbers are normalised, and the arrays of some fields are sorted: the
facets by their dimensions, the references by their ids and some lists of texts. -/

namespace OvcReplay.Esl

open Python Json SharedSystems

/-- `CanonicalizationError` and `ReferenceCanonicalizationError` with their codes, or an exception
of the language. -/
inductive CanonicalizationError where
  | canonical (code : PyStr)
  | reference (code : PyStr)
  | python (e : PyError)
  deriving DecidableEq, Repr

/-- What the encoders take from the language: `Decimal(str(x))` of a finite float, and the order of
the positions after a sort by keys that are not all texts. -/
structure Language where
  floatDecimal : PyFloat → FiniteDecimal
  sortOrder : List PyVal → Except PyError (List Nat)
  sortOrder_perm : ∀ {keys order}, sortOrder keys = .ok order → order.Perm (List.range keys.length)

variable (L : Language)

/-! ## What both modules write out -/

/-- The text of a dimension of a facet. -/
def dimension? (item : PyVal) : Option PyStr :=
  match item with
  | .dict items =>
    match Dict.get? items (.str (py "dimension")) with
    | some (.str s) => some s
    | _ => none
  | _ => none

/-- `item["ref_id"]`. -/
def refId? (item : PyVal) : Option PyVal :=
  match item with
  | .dict items => Dict.get? items (.str (py "ref_id"))
  | _ => none

/-- The text of a value that is one. -/
def str? : PyVal → Option PyStr
  | .str s => some s
  | _ => none

/-- `format(d.normalize(), "f")` without zeros at its end. -/
def normalizedText (d : FiniteDecimal) : Except PyError PyStr :=
  (PyDecimal.fix d.negative d.coefficient d.exponent).map fun fixed =>
    plain fixed.normalize.formatF

/-- `sorted(items, key=...)` where each item must have its key. -/
def sortedOn {α κ : Type} [LinearOrder κ] (key : α → Option κ) (default : κ)
    (e : CanonicalizationError) (items : List α) : Except CanonicalizationError (List α) := do
  check (items.all (fun item => (key item).isSome) = true) e
  return sortedBy (fun item => (key item).getD default) items

/-- `sorted(items, key=lambda item: item["ref_id"])`: by texts, or in the order that the language
gives to other ids. -/
def sortedByRefId {α : Type} (value : α → PyVal) (e : CanonicalizationError) (items : List α) :
    Except CanonicalizationError (List α) := do
  check (items.all (fun item => (refId? (value item)).isSome) = true) e
  let ids := items.map fun item => (refId? (value item)).getD .none
  if ids.all (fun id => (str? id).isSome) then
    return sortedBy (fun item => ((refId? (value item)).bind str?).getD []) items
  else do
    let order ← (L.sortOrder ids).mapError fun _ => e
    return order.filterMap fun i => items[i]?

/-! ## `canonical.py` -/

/-- `_FIXED_DIMENSION_ORDER`. -/
def fixedDimensionOrder : Dict PyStr Nat :=
  [(py "LOCATION", 0), (py "MOTION", 1), (py "ORGANISATION", 2), (py "INTERACTION", 3)]

/-- `_LEXICAL_ARRAY_FIELDS`. -/
def lexicalArrayFields : List PyStr :=
  [py "development_refs", py "missing_ref_ids", py "optional_ref_ids", py "persistence_refs",
    py "reason_codes", py "required_ref_ids", py "source_generation_ids", py "source_ref_ids"]

/-- `_number_text` of a decimal. -/
def numberTextOf (d : FiniteDecimal) : Except CanonicalizationError Json := do
  check (¬ (d.coefficient = 0 ∧ d.negative = true))
    (.canonical (py "ESL_CANONICAL_NEGATIVE_ZERO"))
  if d.coefficient = 0 then return .float (py "0")
  else do
    let text ← (normalizedText d).mapError .python
    check (text ≠ py "-0") (.canonical (py "ESL_CANONICAL_NEGATIVE_ZERO"))
    return .float text

/-- `_string_text`, the check. -/
def stringText (s : PyStr) : Except CanonicalizationError Unit :=
  (encodeUtf8 s).mapError (fun _ => .canonical (py "ESL_CANONICAL_INVALID_UTF8_STRING")) >>=
    fun _ => .ok ()

/-- `_ordered_array`, of items that hold the values. -/
def orderedArray {α : Type} (value : α → PyVal) (items : List α) (path : List PyStr) :
    Except CanonicalizationError (List α) :=
  let field := path.getLast?.getD []
  if field = py "facets" then
    sortedOn (fun item => (dimension? (value item)).bind (Dict.get? fixedDimensionOrder)) 0
      (.canonical (py "ESL_CANONICAL_FACET_ORDER_UNRESOLVED")) items
  else if field ∈ lexicalArrayFields then
    sortedOn (fun item => str? (value item)) []
      (.canonical (py "ESL_CANONICAL_LEXICAL_ARRAY_NONSTRING:" ++ field)) items
  else if field = py "dependency_refs" then
    sortedByRefId L value (.canonical (py "ESL_CANONICAL_OBJECT_ARRAY_KEY_MISSING:" ++ field)) items
  else .ok items

mutual

/-- `_emit`: the tree whose text it is. -/
def emit (path : List PyStr) : PyVal → Except CanonicalizationError Json
  | .none => .ok .null
  | .bool b => .ok (.bool b)
  | .int z => ((strInt z).mapError .python).map .float
  | .float (.finite negative mantissa exponent) =>
    if mantissa = 0 ∧ negative = true then
      .error (.canonical (py "ESL_CANONICAL_NEGATIVE_ZERO"))
    else numberTextOf (L.floatDecimal (.finite negative mantissa exponent))
  | .float _ => .error (.canonical (py "ESL_CANONICAL_NONFINITE_NUMBER"))
  | .decimal (.finite negative coefficient exponent) =>
    numberTextOf ⟨negative, coefficient, exponent⟩
  | .decimal _ => .error (.canonical (py "ESL_CANONICAL_NONFINITE_NUMBER"))
  | .str s => do
    stringText s
    return .str s
  | .dict items => do
    check (∀ p ∈ items, (keyStr? p.1).isSome = true)
      (.canonical (py "ESL_CANONICAL_OBJECT_KEY_NOT_STRING"))
    let members ← (sortedBy Prod.fst (emitItems path items)).mapM fun p => do
      stringText p.1
      let j ← p.2
      return (p.1, j)
    return .obj members
  | .list xs => do
    let ordered ← orderedArray L Prod.fst (emitList path xs) path
    let items ← ordered.mapM Prod.snd
    return .arr items
  | .tuple xs => do
    let ordered ← orderedArray L Prod.fst (emitList path xs) path
    let items ← ordered.mapM Prod.snd
    return .arr items
  | .set _ => .error (.canonical (py "ESL_CANONICAL_UNSUPPORTED_TYPE"))
  | .other _ => .error (.canonical (py "ESL_CANONICAL_UNSUPPORTED_TYPE"))

/-- The elements of an array with their trees. -/
def emitList (path : List PyStr) : List PyVal → List (PyVal × Except CanonicalizationError Json)
  | [] => []
  | x :: xs => (x, emit (path ++ [py "[]"]) x) :: emitList path xs

/-- The items of an object with their trees. -/
def emitItems (path : List PyStr) :
    List (PyKey × PyVal) → List (PyStr × Except CanonicalizationError Json)
  | [] => []
  | (k, v) :: items =>
    ((keyStr? k).getD [], emit (path ++ [(keyStr? k).getD []]) v) :: emitItems path items

end

/-- `canonical_json_v1_bytes`. -/
def canonicalJsonV1Bytes (v : PyVal) : Except CanonicalizationError PyStr := do
  let tree ← emit L [] v
  (encodeUtf8 tree.render).mapError .python

/-! ## `canonical_reference.py` -/

/-- `_DIMENSIONS`. -/
def dimensions : List PyStr := [py "LOCATION", py "MOTION", py "ORGANISATION", py "INTERACTION"]

/-- `_SET_ARRAYS`. -/
def setArrays : List PyStr :=
  [py "development_refs", py "missing_ref_ids", py "optional_ref_ids", py "persistence_refs",
    py "reason_codes", py "required_ref_ids", py "source_generation_ids", py "source_ref_ids"]

/-- `_decimal_token` of a decimal. -/
def decimalToken (d : FiniteDecimal) : Except CanonicalizationError Json := do
  check (¬ (d.coefficient = 0 ∧ d.negative = true)) (.reference (py "REFERENCE_NEGATIVE_ZERO"))
  if d.coefficient = 0 then return .float (py "0")
  else do
    let token ← (normalizedText d).mapError .python
    check (token ≠ py "-0") (.reference (py "REFERENCE_NEGATIVE_ZERO"))
    return .float token

/-- `_quote`, the check. -/
def quoteCheck (s : PyStr) : Except CanonicalizationError Unit :=
  (encodeUtf8 s).mapError (fun _ => .reference (py "REFERENCE_BAD_UTF8")) >>= fun _ => .ok ()

/-- `_array_order`, of items that hold the values. -/
def arrayOrder {α : Type} (value : α → PyVal) (items : List α) (field : PyStr) :
    Except CanonicalizationError (List α) :=
  if field = py "facets" then
    sortedOn (fun item => (dimension? (value item)).bind fun name => dimensions.idxOf? name) 0
      (.reference (py "REFERENCE_BAD_FACETS")) items
  else if field ∈ setArrays then
    sortedOn (fun item => str? (value item)) [] (.reference (py "REFERENCE_NONSTRING_SET_ARRAY"))
      items
  else if field = py "dependency_refs" then
    sortedByRefId L value (.reference (py "REFERENCE_BAD_DEPENDENCY_REFS")) items
  else .ok items

mutual

/-- `_walk`: the tree whose text it is. -/
def walk (field : PyStr) : PyVal → Except CanonicalizationError Json
  | .none => .ok .null
  | .bool b => .ok (.bool b)
  | .int z => ((strInt z).mapError .python).map .float
  | .float (.finite negative mantissa exponent) =>
    if mantissa = 0 ∧ negative = true then .error (.reference (py "REFERENCE_NEGATIVE_ZERO"))
    else decimalToken (L.floatDecimal (.finite negative mantissa exponent))
  | .float _ => .error (.reference (py "REFERENCE_NONFINITE"))
  | .decimal (.finite negative coefficient exponent) =>
    decimalToken ⟨negative, coefficient, exponent⟩
  | .decimal _ => .error (.reference (py "REFERENCE_NONFINITE"))
  | .str s => do
    quoteCheck s
    return .str s
  | .dict items => do
    check (∀ p ∈ items, (keyStr? p.1).isSome = true) (.reference (py "REFERENCE_NONSTRING_KEY"))
    let members ← (sortedBy Prod.fst (walkItems items)).mapM fun p => do
      quoteCheck p.1
      let j ← p.2
      return (p.1, j)
    return .obj members
  | .list xs => do
    let ordered ← arrayOrder L Prod.fst (walkList xs) field
    let items ← ordered.mapM Prod.snd
    return .arr items
  | .tuple xs => do
    let ordered ← arrayOrder L Prod.fst (walkList xs) field
    let items ← ordered.mapM Prod.snd
    return .arr items
  | .set _ => .error (.reference (py "REFERENCE_UNSUPPORTED"))
  | .other _ => .error (.reference (py "REFERENCE_UNSUPPORTED"))

/-- The elements of an array with their trees. -/
def walkList : List PyVal → List (PyVal × Except CanonicalizationError Json)
  | [] => []
  | x :: xs => (x, walk [] x) :: walkList xs

/-- The items of an object with their trees. -/
def walkItems : List (PyKey × PyVal) → List (PyStr × Except CanonicalizationError Json)
  | [] => []
  | (k, v) :: items => ((keyStr? k).getD [], walk ((keyStr? k).getD []) v) :: walkItems items

end

/-- `reference_canonical_json_v1_bytes`. -/
def referenceCanonicalJsonV1Bytes (v : PyVal) : Except CanonicalizationError PyStr := do
  let tree ← walk L [] v
  (encodeUtf8 tree.render).mapError .python

end OvcReplay.Esl
