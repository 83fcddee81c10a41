import OvcReplay.Json.Dumps

/-! # Canonical serialization of SRFD

`serialization.py`: the canonical bytes of a value and the ids taken of them. Unlike those of C2E
they keep floats, and write Decimals without trailing zeros. -/

namespace OvcReplay.Srfd

open Python Json

/-- The exceptions of the SRFD modules. -/
inductive Error where
  | python (e : PyError)
  | family (reasonCode detail : PyStr)
  /-- `next` of an iterator that is used up. -/
  | stopIteration
  deriving DecidableEq, Repr

variable (P : Platform)

/-- `text.rstrip(c)`. -/
def rstrip (c : CodePoint) (text : PyStr) : PyStr := (text.reverse.dropWhile (· = c)).reverse

/-- The text of a Decimal that is finite. -/
def decimalText (d : PyDecimal) : PyStr :=
  let text := d.formatF
  let stripped := if .ofChar '.' ∈ text then rstrip (.ofChar '.') (rstrip (.ofChar '0') text)
    else text
  if stripped = [] then py "0" else stripped

/-- A dictionary whose keys are all texts, by these. -/
def textItems (items : List (PyKey × PyVal)) : Except PyError (List (PyStr × PyVal)) :=
  items.mapM fun p =>
    match p.1 with
    | .str s => .ok (s, p.2)
    | _ => .error .typeError

mutual

/-- `_canonical`. -/
def canonical : PyVal → Except PyError PyVal
  | .decimal d =>
    match d with
    | .finite .. => .ok (.str (decimalText d))
    | _ => .error .valueError
  | .float x =>
    match x with
    | .finite .. => .ok (.float x)
    | _ => .error .valueError
  | .dict items => do
    let _ ← textItems items
    return .dict (← canonicalItems items)
  | .list xs => (canonicalList xs).map .list
  | .tuple xs => (canonicalList xs).map .list
  | .set _ => .error .typeError
  | .other _ => .error .typeError
  | v => .ok v

/-- The canonical elements of a list. -/
def canonicalList : List PyVal → Except PyError (List PyVal)
  | [] => .ok []
  | x :: xs => do
    let y ← canonical x
    return y :: (← canonicalList xs)

/-- The items of a dictionary with their canonical values; `json.dumps` sorts them. -/
def canonicalItems : List (PyKey × PyVal) → Except PyError (List (PyKey × PyVal))
  | [] => .ok []
  | (k, v) :: items => do
    let w ← canonical v
    return (k, w) :: (← canonicalItems items)

end

/-- `canonical_json_bytes`. -/
def canonicalJsonBytes (v : PyVal) : Except PyError PyStr := do
  let c ← canonical v
  let j ← dumps P c
  encodeUtf8 j.render

/-- `logical_sha256`. -/
def logicalSha256 (v : PyVal) : Except Error PyStr :=
  ((canonicalJsonBytes P v).map fun s => (P.sha256 s).text).mapError .python

/-- `NON_IDENTITY_DIAGNOSTIC_KEYS`. -/
def nonIdentityDiagnosticKeys : List String :=
  ["created_at", "executed_at", "start_time", "end_time", "runtime_seconds", "hostname", "host",
    "worker_id", "worker_name", "local_path", "external_artifact_root"]

/-- The key is one of a diagnostic. -/
def isDiagnostic : PyKey → Bool
  | .str s => decide (s ∈ nonIdentityDiagnosticKeys.map py)
  | _ => false

mutual

/-- `identity_payload`: no diagnostics at any depth. -/
def identityPayload : PyVal → PyVal
  | .dict items => .dict (identityItems items)
  | .list xs => .list (identityList xs)
  | .tuple xs => .list (identityList xs)
  | v => v

/-- The elements of a list without diagnostics. -/
def identityList : List PyVal → List PyVal
  | [] => []
  | x :: xs => identityPayload x :: identityList xs

/-- The items of a dictionary without diagnostics. -/
def identityItems : List (PyKey × PyVal) → List (PyKey × PyVal)
  | [] => []
  | (k, v) :: items =>
    if isDiagnostic k then identityItems items
    else (k, identityPayload v) :: identityItems items

end

/-- `stable_id`, for one of the prefixes of the repository, all of which end in a point. -/
def stableId (pre : String) (value : Record) : Except Error PyStr :=
  (logicalSha256 P (identityPayload (.ofRecord value))).map fun hash => py pre ++ hash

end OvcReplay.Srfd
