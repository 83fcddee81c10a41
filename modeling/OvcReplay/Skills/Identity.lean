import OvcReplay.Json.Dumps

/-! # Canonical identities

`identity.py`: the hash of the canonical bytes of a value, bound to a role. -/

namespace OvcReplay.Skills

open Python Json

mutual

/-- `_reject_non_finite`; `IdentityError` is a `ValueError`. -/
def rejectNonFinite : PyVal → Except PyError Unit
  | .float (.finite ..) => .ok ()
  | .float _ => .error .valueError
  | .dict items => rejectItems items
  | .list xs => rejectList xs
  | .tuple xs => rejectList xs
  | _ => .ok ()

/-- The items of a dictionary, whose keys have to be texts. -/
def rejectItems : List (PyKey × PyVal) → Except PyError Unit
  | [] => .ok ()
  | (k, v) :: items => do
    check ((keyStr? k).isSome = true) .valueError
    rejectNonFinite v
    rejectItems items

/-- The elements of a sequence. -/
def rejectList : List PyVal → Except PyError Unit
  | [] => .ok ()
  | x :: xs => do
    rejectNonFinite x
    rejectList xs

end

variable (P : Platform)

/-- `canonical_json_bytes`. -/
def canonicalJsonBytes (v : PyVal) : Except PyError PyStr := do
  rejectNonFinite v
  let tree ← dumps P v
  encodeUtf8 tree.render

/-- `canonical_sha256` with a role. -/
def canonicalSha256 (v : PyVal) (role : PyStr) : Except PyError HexDigest := do
  let bytes ← canonicalJsonBytes P
    (.ofRecord [(py "identity_role", .str role), (py "logical_content", v)])
  return P.sha256 bytes

end OvcReplay.Skills
