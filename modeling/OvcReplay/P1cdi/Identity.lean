import OvcReplay.Json.Stable

/-! # Semantic projections

`identity.py` of P1CDI: what identifies a distinction, the canonical bytes of it, and the projection
that binds them to a generation. -/

namespace OvcReplay.P1cdi

open Python Json

variable (P : Platform)

/-! ## Canonical JSON -/

/-- `canonical_json_bytes(value, trailing_newline=False)`. -/
def canonicalJsonBytes (v : PyVal) : Except PyError PyStr := do
  let j ← dumps P v
  encodeUtf8 j.render

/-- `hashlib.sha256(text).hexdigest()`. -/
def sha256Hex (s : PyStr) : PyStr := (P.sha256 s).text

/-- `canonical_sha256`. -/
def canonicalSha256 (v : PyVal) : Except PyError PyStr :=
  (canonicalJsonBytes P v).map (sha256Hex P)

/-! ## What identifies a distinction -/

/-- `PROFILE_ID`. -/
def profileId : PyStr := py "P1CDI-SEMANTIC-PROJECTION-v1"

/-- `IDENTITY_FIELDS`. -/
def identityFieldNames : List String :=
  ["unit_type", "structural_predicates", "structural_relations", "complete_minimal_core_set",
    "applicability_scope", "identity_defining_dependencies", "first_valid_semantics",
    "missingness_semantics", "representation_dependency", "method_dependency",
    "boundary_dependency"]

/-- `EVIDENCE_ONLY_FIELDS`. -/
def evidenceOnlyFields : List String :=
  ["recurrence_count", "qa_state", "evidence_maturity", "worker", "path", "branch", "pull_request",
    "run_attempt", "cache", "integration_provenance"]

/-- A field of evidence or provenance, or no name at all. -/
def deniedKey : PyKey → Bool
  | .str name => decide (name ∈ evidenceOnlyFields.map py)
  | _ => true

mutual

/-- The value can enter a semantic identity. -/
def admissible : PyVal → Bool
  | .none => true
  | .bool _ => true
  | .int _ => true
  | .float _ => true
  | .str _ => true
  | .list xs => admissibleAll xs
  | .dict items => admissibleItems items
  | _ => false

def admissibleAll : List PyVal → Bool
  | [] => true
  | x :: xs => admissible x && admissibleAll xs

def admissibleItems : List (PyKey × PyVal) → Bool
  | [] => true
  | (k, v) :: items => !deniedKey k && admissible v && admissibleItems items

end

/-- `_copy_json_value`: the copy of a JSON value is that value. -/
def copyJsonValue (v : PyVal) : Except PyError PyVal :=
  if admissible v then .ok v else .error .valueError

/-- The keys that are no identity fields, sorted for the message of the refusal. -/
def refuseFields (items : List (PyKey × PyVal)) : Except PyError Unit := do
  let _ ← sortItems (items.filter fun p => p.1 ∉ identityFieldNames.map fun name => .str (py name))
  .error .valueError

/-- The owner is a text that is not empty. -/
def checkOwner : PyVal → Except PyError Unit
  | .str s => check (s ≠ []) .valueError
  | _ => .error .valueError

/-- The fields are an object with exactly the identity fields. -/
def checkFieldNames : PyVal → Except PyError Unit
  | .dict items =>
    if (∀ p ∈ items, p.1 ∈ identityFieldNames.map fun name => .str (py name)) ∧
        ∀ name ∈ identityFieldNames, .str (py name) ∈ items.map Prod.fst then .ok ()
    else refuseFields items
  | _ => .error .valueError

/-- `_identity_payload`. -/
def identityPayload (ownerSemanticBinding identityFields : PyVal) : Except PyError Record := do
  checkOwner ownerSemanticBinding
  checkFieldNames identityFields
  let copied ← copyJsonValue identityFields
  return [(py "profile_id", .str profileId), (py "owner_semantic_binding", ownerSemanticBinding),
    (py "identity_fields", copied)]

/-- `P1DistinctionSemanticProjection`: a record with exactly the fields of `_PROJECTION_FIELDS`. -/
structure Projection where
  recordType : PyVal
  schemaVersion : PyVal
  authorityEffect : PyVal
  generationId : PyVal
  profileId : PyVal
  ownerSemanticBinding : PyVal
  identityFields : PyVal
  projectionSha256 : PyVal
  deriving DecidableEq

/-- The canonical bytes of an owner's identity. -/
def identityBytes (ownerSemanticBinding identityFields : PyVal) : Except PyError PyStr := do
  let payload ← identityPayload ownerSemanticBinding identityFields
  canonicalJsonBytes P (.ofRecord payload)

/-- `projection_bytes`. -/
def projectionBytes (projection : Projection) : Except PyError PyStr := do
  check (projection.profileId = .str profileId) .valueError
  identityBytes P projection.ownerSemanticBinding projection.identityFields

/-- The projection of an identity with these bytes. -/
def projectionOf (generationId : PyStr) (ownerSemanticBinding identityFields : PyVal)
    (bytes : PyStr) : Projection :=
  { recordType := .str (py "P1DistinctionSemanticProjection")
    schemaVersion := .str (py "0.1")
    authorityEffect := .str (py "NONE")
    generationId := .str generationId
    profileId := .str profileId
    ownerSemanticBinding := ownerSemanticBinding
    identityFields := identityFields
    projectionSha256 := .str (sha256Hex P bytes) }

/-- `build_semantic_projection`. -/
def buildSemanticProjection (generationId : PyStr) (ownerSemanticBinding identityFields : PyVal) :
    Except PyError Projection := do
  check (generationId ≠ []) .valueError
  let bytes ← identityBytes P ownerSemanticBinding identityFields
  return projectionOf P generationId ownerSemanticBinding identityFields bytes

/-- `except ValueError` catches it. -/
def isValueError : PyError → Bool
  | .valueError => true
  | .unicodeEncodeError => true
  | _ => false

/-- The canonical bytes of two projections. -/
def bytesOfBoth (left right : Projection) : Except PyError (PyStr × PyStr) := do
  let leftBytes ← projectionBytes P left
  let rightBytes ← projectionBytes P right
  return (leftBytes, rightBytes)

/-- `exact_semantic_equal`. -/
def exactSemanticEqual (left right : Projection) : Except PyError Bool :=
  match bytesOfBoth P left right with
  | .error e => if isValueError e then .ok false else .error e
  | .ok (leftBytes, rightBytes) =>
    .ok (decide (sha256Hex P leftBytes = sha256Hex P rightBytes ∧
      left.projectionSha256 = .str (sha256Hex P leftBytes) ∧
      right.projectionSha256 = .str (sha256Hex P rightBytes) ∧ leftBytes = rightBytes))

/-! ## Canonical bytes of records -/

variable {P}

theorem canonicalJsonBytes_ok {v : PyVal} {s : PyStr} :
    canonicalJsonBytes P v = .ok s ↔ ∃ j, dumps P v = .ok j ∧ j.render = s ∧ Encodable s := by
  rw [canonicalJsonBytes, bind_ok]
  refine exists_congr fun j => and_congr_right fun _ => ?_
  rw [encodeUtf8_ok]
  constructor
  · rintro ⟨h, rfl⟩
    exact ⟨rfl, h⟩
  · rintro ⟨rfl, h⟩
    exact ⟨h, rfl⟩

/-- **A record has canonical bytes iff its names can be encoded and its values have them.** -/
theorem returns_canonicalJsonBytes_ofRecord (r : Record) :
    Returns (canonicalJsonBytes P (.ofRecord r)) ↔
      ∀ p ∈ r, Encodable p.1 ∧ Returns (canonicalJsonBytes P p.2) := by
  have hrets (v : PyVal) : Returns (canonicalJsonBytes P v) ↔
      ∃ j, dumps P v = .ok j ∧ Encodable j.render := by
    constructor
    · rintro ⟨s, hs⟩
      obtain ⟨j, hj, rfl, henc⟩ := canonicalJsonBytes_ok.mp hs
      exact ⟨j, hj, henc⟩
    · rintro ⟨j, hj, henc⟩
      exact ⟨_, canonicalJsonBytes_ok.mpr ⟨j, hj, rfl, henc⟩⟩
  simp only [hrets]
  rw [dumps_ofRecord]
  constructor
  · rintro ⟨j, hj, henc⟩ p hp
    obtain ⟨ms, hms, rfl⟩ := map_ok.mp hj
    obtain ⟨m, hm, hpm⟩ := mem_of_mapM_left hms (mem_sortedBy.mpr hp)
    obtain ⟨t, ht, rfl⟩ := map_ok.mp hpm
    have hmember := (encodable_render_obj ms).mp henc _ hm
    exact ⟨hmember.1, t, ht, hmember.2⟩
  · intro h
    have hret : Returns ((sortedBy Prod.fst r).mapM fun p =>
        (dumps P p.2).map fun t => (p.1, t)) := by
      rw [returns_mapM]
      intro p hp
      obtain ⟨-, t, ht, -⟩ := h p (mem_sortedBy.mp hp)
      rw [ht]
      exact returns_ok _
    obtain ⟨ms, hms⟩ := hret
    refine ⟨.obj ms, map_ok.mpr ⟨ms, hms, rfl⟩, (encodable_render_obj ms).mpr fun m hm => ?_⟩
    obtain ⟨p, hp, hpm⟩ := mem_of_mapM_right hms hm
    obtain ⟨t, ht, rfl⟩ := map_ok.mp hpm
    obtain ⟨hk, t', ht', henc⟩ := h p (mem_sortedBy.mp hp)
    exact ⟨hk, Except.ok.inj (ht ▸ ht') ▸ henc⟩

theorem returns_canonicalJsonBytes_str {s : PyStr} :
    Returns (canonicalJsonBytes P (.str s)) ↔ Encodable s := by
  constructor
  · rintro ⟨t, ht⟩
    obtain ⟨j, hj, rfl, henc⟩ := canonicalJsonBytes_ok.mp ht
    rw [dumps, dumpsWith_str] at hj
    rw [← Except.ok.inj hj] at henc
    exact (encodable_render_str s).mp henc
  · intro h
    exact ⟨_, canonicalJsonBytes_ok.mpr
      ⟨_, dumpsWith_str P s, rfl, (encodable_render_str s).mpr h⟩⟩

/-- A record of texts. -/
def textRecord (r : List (PyStr × PyStr)) : Record := r.map fun p => (p.1, .str p.2)

/-- **The canonical bytes of a record of texts determine it.** -/
theorem textRecord_inj (r r' : List (PyStr × PyStr)) (hr : (Dict.keys r).Nodup) {s : PyStr}
    (h : canonicalJsonBytes P (.ofRecord (textRecord r)) = .ok s)
    (h' : canonicalJsonBytes P (.ofRecord (textRecord r')) = .ok s) (q : PyStr) :
    Dict.get? r q = Dict.get? r' q := by
  have htree (r : List (PyStr × PyStr)) : dumps P (.ofRecord (textRecord r)) =
      .ok (.obj ((sortedBy Prod.fst r).map fun p => (p.1, .str p.2))) := by
    have hmems : ∀ xs : List (PyStr × PyStr),
        ((xs.map fun p => (p.1, .str p.2)).mapM fun p =>
          (dumps P p.2).map fun j => (p.1, j)) = .ok (xs.map fun p => (p.1, .str p.2)) := by
      intro xs
      rw [List.mapM_map, mapM_ok_iff]
      induction xs with
      | nil => exact .nil
      | cons p xs ih => exact .cons (by simp [dumps, Except.map]) ih
    rw [dumps_ofRecord, textRecord, sortedBy_map, hmems]
    rfl
  have hplain (r : List (PyStr × PyStr)) :
      Plain (.obj ((sortedBy Prod.fst r).map fun p => (p.1, .str p.2))) := by
    refine .obj fun m hm => ?_
    obtain ⟨p, -, rfl⟩ := List.mem_map.mp hm
    exact .str _
  obtain ⟨j, hj, hs, -⟩ := canonicalJsonBytes_ok.mp h
  obtain ⟨j', hj', hs', -⟩ := canonicalJsonBytes_ok.mp h'
  cases (htree r).symm.trans hj
  cases (htree r').symm.trans hj'
  have hobj := (hplain r).render_inj (hplain r') (hs.trans hs'.symm)
  have hsort : sortedBy Prod.fst r = sortedBy Prod.fst r' := by
    refine List.map_injective_iff.mpr ?_ (Json.obj.inj hobj)
    rintro ⟨k, a⟩ ⟨k', a'⟩ heq
    obtain ⟨hk, ha⟩ := Prod.mk.inj heq
    obtain rfl : k = k' := hk
    obtain rfl : a = a' := Json.str.inj ha
    rfl
  have hperm : r.Perm r' := by
    refine (sortedBy_perm Prod.fst r).symm.trans ?_
    rw [hsort]
    exact sortedBy_perm Prod.fst r'
  exact Dict.get?_of_perm hr hperm q

end OvcReplay.P1cdi
