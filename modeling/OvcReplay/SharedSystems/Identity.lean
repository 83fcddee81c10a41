import OvcReplay.SharedSystems.NumberText
import OvcReplay.Json.Dumps

/-! # Canonical bytes of the shared identities

`identity.py`: a value is written under a profile, which says how numbers, negative zeros, missing
values, texts and arrays are written. -/

namespace OvcReplay.SharedSystems

open Python Json

/-! ## Profiles -/

/-- `unicode_policy`. -/
inductive UnicodePolicy where
  | preserve
  | requireNfc
  deriving DecidableEq

/-- `numeric_policy`. -/
inductive NumericPolicy where
  | jsonNumber
  | canonicalDecimalString
  | precisionPreservingDecimalString
  deriving DecidableEq

/-- `negative_zero_policy`. -/
inductive NegativeZeroPolicy where
  | reject
  | normalizeToZero
  | preserve
  deriving DecidableEq

/-- `collection_policy`. -/
inductive CollectionPolicy where
  | orderedSequence
  | semanticSet
  | ownerDeclaredOrder
  deriving DecidableEq

/-- `null_policy`. -/
inductive NullPolicy where
  | explicitAllow
  | reject
  deriving DecidableEq

/-- The policies of `SerializationProfile` that `canonicalize` reads and that have a choice. -/
structure SerializationProfile where
  unicodePolicy : UnicodePolicy
  numericPolicy : NumericPolicy
  negativeZeroPolicy : NegativeZeroPolicy
  collectionPolicy : CollectionPolicy
  nullPolicy : NullPolicy

/-- `NonCanonicalIdentityPayload` with its code, or an exception of the language. -/
inductive IdentityError where
  | noncanonical (code : PyStr)
  | python (e : PyError)
  deriving DecidableEq, Repr

/-! ## Numbers and texts -/

variable (P : Platform) (reprDecimal : PyFloat → FiniteDecimal) (profile : SerializationProfile)

/-- `_validated_text`, the check. -/
def validatedText (s : PyStr) : Except IdentityError Unit :=
  check (profile.unicodePolicy = .requireNfc → P.isNormalizedNfc s = true)
    (.noncanonical (py "UNICODE_NOT_NFC"))

/-- The number that a value is; of a float it is `Decimal(repr(value))`. -/
def number? : PyVal → Option FiniteDecimal
  | .int z => some ⟨decide (z < 0), z.natAbs, 0⟩
  | .float (.finite negative mantissa exponent) =>
    some (reprDecimal (.finite negative mantissa exponent))
  | .decimal (.finite negative coefficient exponent) => some ⟨negative, coefficient, exponent⟩
  | _ => none

variable (d : FiniteDecimal)

/-- A zero with a sign. -/
def FiniteDecimal.NegativeZero : Prop :=
  d.coefficient = 0 ∧ d.negative = true

instance : DecidablePred FiniteDecimal.NegativeZero := fun _ => inferInstanceAs (Decidable (_ ∧ _))

/-- The number after the policy for negative zeros, where it is not rejected. -/
def settled : FiniteDecimal :=
  if d.NegativeZero ∧ profile.negativeZeroPolicy = .normalizeToZero then ⟨false, 0, 0⟩ else d

/-- The text of a number without zeros at its end. -/
def numberText : PyStr :=
  if d.coefficient = 0 then (if d.negative then py "-0" else py "0") else plain d.format

/-- How a number is spelled. -/
def spelling : PyStr :=
  if profile.numericPolicy = .precisionPreservingDecimalString then (settled profile d).format
  else numberText (settled profile d)

/-- `_number_text`. -/
def numberTree : Except IdentityError Json := do
  check (d.NegativeZero → profile.negativeZeroPolicy ≠ .reject)
    (.noncanonical (py "NEGATIVE_ZERO_REJECTED"))
  if profile.numericPolicy = .jsonNumber then
    return .float (spelling profile d)
  else do
    validatedText P profile (spelling profile d)
    return .str (spelling profile d)

/-! ## Values -/

/-- The items of an array, in the order of their texts where it is a set. -/
def collect (items : List Json) : Except IdentityError Json :=
  if profile.collectionPolicy = .semanticSet then do
    let _ ← items.mapM fun item => (encodeUtf8 item.render).mapError .python
    check (items.map render).Nodup (.noncanonical (py "SEMANTIC_SET_DUPLICATE"))
    return .arr (sortedBy render items)
  else .ok (.arr items)

mutual

/-- `_canonical_text`: the tree whose text it is. -/
def canonicalTree : PyVal → Except IdentityError Json
  | .none => do
    check (profile.nullPolicy ≠ .reject) (.noncanonical (py "NULL_REJECTED"))
    return .null
  | .bool b => .ok (.bool b)
  | .str s => do
    validatedText P profile s
    return .str s
  | .int z => numberTree P profile ⟨decide (z < 0), z.natAbs, 0⟩
  | .float (.finite negative mantissa exponent) =>
    numberTree P profile (reprDecimal (.finite negative mantissa exponent))
  | .float _ => .error (.noncanonical (py "NON_FINITE_NUMBER"))
  | .decimal (.finite negative coefficient exponent) =>
    numberTree P profile ⟨negative, coefficient, exponent⟩
  | .decimal _ => .error (.noncanonical (py "NON_FINITE_NUMBER"))
  | .list xs => do
    let items ← canonicalList xs
    collect profile items
  | .tuple xs => do
    let items ← canonicalList xs
    collect profile items
  | .dict items => do
    check (∀ p ∈ items, (keyStr? p.1).isSome = true)
      (.noncanonical (py "OBJECT_KEY_NOT_STRING"))
    let members ← canonicalItems items
    return .obj (sortedBy Prod.fst members)
  | .set _ => .error (.noncanonical (py "UNSUPPORTED_IDENTITY_TYPE"))
  | .other _ => .error (.noncanonical (py "UNSUPPORTED_IDENTITY_TYPE"))

/-- The elements of an array. -/
def canonicalList : List PyVal → Except IdentityError (List Json)
  | [] => .ok []
  | x :: xs => do
    let item ← canonicalTree x
    let items ← canonicalList xs
    return item :: items

/-- The members of an object, in the order of the mapping. -/
def canonicalItems : List (PyKey × PyVal) → Except IdentityError (List (PyStr × Json))
  | [] => .ok []
  | (k, v) :: items => do
    validatedText P profile ((keyStr? k).getD [])
    let item ← canonicalTree v
    let members ← canonicalItems items
    return ((keyStr? k).getD [], item) :: members

end

/-- `canonicalize`. -/
def canonicalize (v : PyVal) : Except IdentityError PyStr := do
  let tree ← canonicalTree P reprDecimal profile v
  (encodeUtf8 tree.render).mapError .python

end OvcReplay.SharedSystems
