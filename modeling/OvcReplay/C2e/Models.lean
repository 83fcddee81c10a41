import OvcReplay.C2e.Serialization

/-! # Semantic records of C2E v0.2

`models.py`: the kinds of records, the fields they need and the fields they are identified by, and
`build_record`, which canonicalises a payload, checks it and seals it with its id and hash. -/

namespace OvcReplay.C2e

open List Python

variable (P : Platform)

/-- The kinds of `RECORD_SPECS`. -/
inductive RecordKind where
  | episodeGenesis
  | episodeSnapshot
  | phaseSegment
  | boundaryEvent
  | lineageEdge
  | membershipDelta
  | remapRecord
  | streamManifest
  | checkpoint
  | sriHandoff
  deriving DecidableEq, Repr

/-- A row of `RECORD_SPECS`. -/
structure RecordSpec where
  name : String
  schema : String
  idField : String
  pre : String
  required : List String
  identity : List String
  forbiddenIdentity : List String := []

namespace RecordKind

/-- `RECORD_SPECS`. -/
def spec : RecordKind → RecordSpec
  | episodeGenesis =>
    { name := "episode_genesis", schema := "c2e_episode_genesis/v0_2", idField := "episode_id"
      pre := "C2E.EPISODE"
      required := ["boundary_pack_id", "source_release_id", "instrument_id", "side", "scope_id",
        "scale_id", "birth_frame_id", "birth_boundary_rule_id", "birth_effective_time",
        "first_valid_time", "authority"]
      identity := ["boundary_pack_id", "source_release_id", "instrument_id", "side", "scope_id",
        "scale_id", "birth_frame_id", "birth_boundary_rule_id", "birth_effective_time",
        "first_valid_time"]
      forbiddenIdentity := ["member_ids", "end_time", "status", "terminal_boundary_id",
        "snapshot_ids", "family_id", "semantic_label", "outcome"] }
  | episodeSnapshot =>
    { name := "episode_snapshot", schema := "c2e_episode_snapshot/v0_2", idField := "snapshot_id"
      pre := "C2E.SNAPSHOT"
      required := ["episode_id", "as_of_time", "first_valid_time", "status", "member_ids",
        "phase_segment_ids", "boundary_event_ids", "authority"]
      identity := ["episode_id", "as_of_time", "first_valid_time", "status", "member_ids",
        "phase_segment_ids", "boundary_event_ids"] }
  | phaseSegment =>
    { name := "phase_segment", schema := "c2e_phase_segment/v0_2", idField := "phase_segment_id"
      pre := "C2E.PHASE"
      required := ["episode_id", "phase_type", "start_time", "end_time", "first_valid_time",
        "source_record_ids", "authority"]
      identity := ["episode_id", "phase_type", "start_time", "end_time", "first_valid_time",
        "source_record_ids"] }
  | boundaryEvent =>
    { name := "boundary_event", schema := "c2e_boundary_event/v0_2", idField := "boundary_event_id"
      pre := "C2E.BOUNDARY"
      required := ["episode_ids", "candidate_ids", "lifecycle_action", "priority_class",
        "compatibility_disposition", "effective_time", "confirmation_time", "first_valid_time",
        "collision_disposition", "reason_codes", "authority"]
      identity := ["episode_ids", "candidate_ids", "lifecycle_action", "priority_class",
        "compatibility_disposition", "effective_time", "confirmation_time", "first_valid_time",
        "collision_disposition", "reason_codes"] }
  | lineageEdge =>
    { name := "lineage_edge", schema := "c2e_lineage_edge/v0_2", idField := "lineage_edge_id"
      pre := "C2E.EDGE"
      required := ["edge_type", "parent_episode_id", "child_episode_id", "boundary_event_id",
        "effective_time", "first_valid_time", "authority"]
      identity := ["edge_type", "parent_episode_id", "child_episode_id", "boundary_event_id",
        "effective_time", "first_valid_time"] }
  | membershipDelta =>
    { name := "membership_delta", schema := "c2e_membership_delta/v0_2"
      idField := "membership_delta_id", pre := "C2E.MEMBER"
      required := ["episode_id", "frame_id", "operation", "boundary_event_id", "effective_time",
        "first_valid_time", "authority"]
      identity := ["episode_id", "frame_id", "operation", "boundary_event_id", "effective_time",
        "first_valid_time"] }
  | remapRecord =>
    { name := "remap_record", schema := "c2e_remap_record/v0_2", idField := "remap_record_id"
      pre := "C2E.REMAP"
      required := ["from_boundary_pack_id", "to_boundary_pack_id", "from_episode_ids",
        "to_episode_ids", "mapping_type", "comparison_only", "first_valid_time", "authority"]
      identity := ["from_boundary_pack_id", "to_boundary_pack_id", "from_episode_ids",
        "to_episode_ids", "mapping_type", "comparison_only", "first_valid_time"] }
  | streamManifest =>
    { name := "stream_manifest", schema := "c2e_stream_manifest/v0_2"
      idField := "stream_manifest_id", pre := "C2E.STREAM"
      required := ["source_binding", "boundary_pack_id", "schema_ids", "code_hashes",
        "ordered_record_ids", "ordered_record_hashes", "counts", "missingness", "authority"]
      identity := ["source_binding", "boundary_pack_id", "schema_ids", "code_hashes",
        "ordered_record_ids", "ordered_record_hashes", "counts", "missingness", "authority"] }
  | checkpoint =>
    { name := "checkpoint", schema := "c2e_checkpoint/v0_2", idField := "checkpoint_id"
      pre := "C2E.CHECKPOINT"
      required := ["stream_manifest_id", "completed_partitions", "logical_cursor",
        "semantic_prefix_hash", "replaceable", "authority"]
      identity := ["stream_manifest_id", "completed_partitions", "logical_cursor",
        "semantic_prefix_hash"] }
  | sriHandoff =>
    { name := "sri_handoff", schema := "c2e_sri_handoff/v0_1", idField := "handoff_id"
      pre := "C2E.SRI.HANDOFF"
      required := ["episode_id", "boundary_pack_id", "source_release_id", "scope_id", "scale_id",
        "side", "status", "genesis_ref", "snapshot_ref", "phase_refs", "boundary_refs",
        "lineage_refs", "membership_refs", "availability", "first_valid_time", "authority"]
      identity := ["episode_id", "boundary_pack_id", "source_release_id", "scope_id", "scale_id",
        "side", "status", "genesis_ref", "snapshot_ref", "phase_refs", "boundary_refs",
        "lineage_refs", "membership_refs", "availability", "first_valid_time"] }

/-- A record is identified by fields it must have. -/
theorem identity_subset_required (kind : RecordKind) : kind.spec.identity ⊆ kind.spec.required := by
  cases kind <;> decide

end RecordKind

/-- `_SORTED_LIST_FIELDS`. -/
def sortedListFields : List String :=
  ["member_ids", "phase_segment_ids", "boundary_event_ids", "episode_ids", "candidate_ids",
    "reason_codes", "source_record_ids", "from_episode_ids", "to_episode_ids", "schema_ids",
    "code_hashes", "completed_partitions", "phase_refs", "boundary_refs", "lineage_refs",
    "membership_refs"]

/-- The fields a producer of an SRI handoff does not own. -/
def sriForbidden : List String :=
  ["representation", "normalization", "distance", "family", "medoid", "cluster", "sensitivity",
    "semantic_label", "outcome"]

/-- `str(v)`. -/
def strOf (v : PyVal) : Except Error PyStr := (v.strOf P).mapError .python

/-- The elements sorted by their texts. -/
def sortedByText (xs : List PyVal) : Except Error (List PyVal) := do
  let keyed ← xs.mapM fun x => ((x.strOf P).mapError Error.python).map fun t => (t, x)
  return (sortedBy Prod.fst keyed).map Prod.snd

/-- `_canonical_field_value`. -/
def canonicalFieldValue (key : PyStr) (value : PyVal) : Except Error PyVal :=
  if key ∈ sortedListFields.map py then
    match value with
    | .list xs => (sortedByText P xs).map .list
    | _ => .error (.model (py "LIST_REQUIRED:" ++ key))
  else .ok value

/-- The record the payload starts. -/
def canonicalFields (payload : Record) : Except Error Record :=
  payload.mapM fun p => (canonicalFieldValue P p.1 p.2).map fun v => (p.1, v)

/-- `field in record and record[field] not in (None, "")`. -/
def Present (record : Record) (field : PyStr) : Prop :=
  ∃ v, record.get? field = some v ∧ v ≠ .none ∧ v ≠ .str []

instance (record : Record) (field : PyStr) : Decidable (Present record field) :=
  decidable_of_iff ((record.get? field).any fun v => v ≠ .none ∧ v ≠ .str []) (by
    simp [Present, Option.any_eq_true])

/-- `_require`. -/
def requireModel (condition : Prop) [Decidable condition] (marker : PyStr) : Except Error Unit :=
  check condition (.model marker)

@[simp] theorem returns_requireModel {condition : Prop} [Decidable condition] {marker : PyStr} :
    Returns (requireModel condition marker) ↔ condition := by
  simp [requireModel, Returns]

/-- `record[field]`. -/
def lookup (record : Record) (field : PyStr) : Except Error PyVal :=
  match record.get? field with
  | some v => .ok v
  | none => .error (.python .keyError)

variable (kind : RecordKind)

variable (record : Record)

/-- Every required field is there and filled. -/
def checkRequired : Except Error Unit :=
  forM kind.spec.required fun field =>
    requireModel (Present record (py field))
      (py "REQUIRED_FIELD:" ++ py kind.spec.name ++ py ":" ++ py field)

/-- The checks one kind has and the others lack. -/
def checkKind : Except Error Unit :=
  match kind with
  | .episodeGenesis =>
    forM kind.spec.forbiddenIdentity fun field =>
      requireModel (py field ∉ record.keys) (py "GENESIS_FUTURE_FIELD_DENIED:" ++ py field)
  | .remapRecord => do
    let comparisonOnly ← lookup record (py "comparison_only")
    requireModel (comparisonOnly = .bool true) (py "REMAP_COMPARISON_ONLY_REQUIRED")
    let authority ← lookup record (py "authority")
    requireModel (authority = .str (py "COMPARISON_ONLY")) (py "REMAP_AUTHORITY_INVALID")
  | .checkpoint => do
    let replaceable ← lookup record (py "replaceable")
    requireModel (replaceable = .bool true) (py "CHECKPOINT_MUST_BE_REPLACEABLE")
    let authority ← lookup record (py "authority")
    requireModel (authority = .str (py "OPERATIONAL_NON_SEMANTIC"))
      (py "CHECKPOINT_SEMANTIC_AUTHORITY_DENIED")
  | .sriHandoff => do
    requireModel (∀ field ∈ sriForbidden, py field ∉ record.keys)
      (py "SRI_PRODUCER_OWNERSHIP_BREACH")
    let authority ← lookup record (py "authority")
    requireModel (authority = .str (py "READ_ONLY_PRODUCER_HANDOFF"))
      (py "SRI_HANDOFF_AUTHORITY_INVALID")
  | _ => .ok ()

/-- The fields the record is identified by. -/
def identityPayload : Except Error Record :=
  kind.spec.identity.mapM fun field => (lookup record (py field)).map fun v => (py field, v)

/-- The id of a record with these fields. -/
def recordId : Except Error PyStr := do
  let identity ← identityPayload kind record
  digest P (py kind.spec.pre) (PyVal.ofRecord identity) 32

/-- The record with its schema and its id. -/
def withIdentity (id : PyStr) : Record :=
  Dict.set (record.set (py "schema") (.str (py kind.spec.schema))) (py kind.spec.idField)
    (.str id)

/-- `build_record`. -/
def buildRecord (payload : Record) : Except Error Record := do
  let record ← canonicalFields P payload
  checkRequired kind record
  checkKind kind record
  let id ← recordId P kind record
  let record := withIdentity kind record id
  let hash ← logicalRecordHash P record
  return record.set (py "logical_hash") (.str hash)

/-- `validate_record`: the record that `build_record` makes of the fields the caller owns. -/
def validateRecord : Except Error Record := do
  let expected ← buildRecord P kind
    (record.filter fun p => p.1 ∉ [py "schema", py kind.spec.idField, py "logical_hash"])
  requireModel (record.get? (py "schema") = expected.get? (py "schema"))
    (py "SCHEMA_ID_MISMATCH")
  requireModel (record.get? (py kind.spec.idField) =
    expected.get? (py kind.spec.idField)) (py "RECORD_ID_MISMATCH")
  requireModel (record.get? (py "logical_hash") = expected.get? (py "logical_hash"))
    (py "LOGICAL_HASH_MISMATCH")
  return expected

/-! ## Lists of checks -/

theorem returns_forM {α : Type} {f : α → Except Error Unit} {xs : List α} :
    Returns (forM xs f) ↔ ∀ x ∈ xs, Returns (f x) := by
  induction xs with
  | nil => simp [forM_nil]
  | cons x xs ih =>
    rw [forM_cons, returns_bind, ih, forall_mem_cons]
    exact ⟨fun ⟨a, h, hs⟩ => ⟨⟨a, h⟩, hs⟩, fun ⟨⟨a, h⟩, hs⟩ => ⟨a, h, hs⟩⟩

theorem returns_checkRequired {kind : RecordKind} {record : Record} :
    Returns (checkRequired kind record) ↔
      ∀ field ∈ kind.spec.required, Present record (py field) := by
  simp [checkRequired, returns_forM]

theorem lookup_ok {record : Record} {field : PyStr} {v : PyVal} :
    lookup record field = .ok v ↔ record.get? field = some v := by
  unfold lookup
  cases record.get? field <;> simp

theorem returns_lookup {record : Record} {field : PyStr} :
    Returns (lookup record field) ↔ (record.get? field).isSome := by
  unfold lookup
  cases record.get? field <;> simp

/-! ## What is built -/

/-- **What `build_record` returns**: the canonical fields, sealed, once every check has passed. -/
theorem buildRecord_ok {kind : RecordKind} {payload record : Record} :
    buildRecord P kind payload = .ok record ↔
      ∃ fields id hash, canonicalFields P payload = .ok fields ∧
        (∀ field ∈ kind.spec.required, Present fields (py field)) ∧
        Returns (checkKind kind fields) ∧ recordId P kind fields = .ok id ∧
        logicalRecordHash P (withIdentity kind fields id) = .ok hash ∧
        record = Dict.set (withIdentity kind fields id) (py "logical_hash") (.str hash) := by
  simp only [buildRecord, bind_ok, ← returns_checkRequired]
  constructor
  · rintro ⟨fields, hf, _, hreq, _, hkind, id, hid, hash, hhash, h⟩
    exact ⟨fields, id, hash, hf, ⟨_, hreq⟩, ⟨_, hkind⟩, hid, hhash, (Except.ok.inj h).symm⟩
  · rintro ⟨fields, id, hash, hf, ⟨_, hreq⟩, ⟨_, hkind⟩, hid, hhash, rfl⟩
    exact ⟨fields, hf, _, hreq, _, hkind, id, hid, hash, hhash, rfl⟩

/-- The fields `build_record` adds. -/
def RecordKind.reserved : List PyStr :=
  [py "schema", py kind.spec.idField, py "logical_hash"]

theorem RecordKind.reserved_nodup : kind.reserved.Nodup := by
  cases kind <;> simp [reserved, spec]

theorem get?_withIdentity {kind : RecordKind} {fields : Record} {id q : PyStr} :
    Dict.get? (withIdentity kind fields id) q =
      if py kind.spec.idField = q then some (.str id)
      else if py "schema" = q then some (.str (py kind.spec.schema))
      else fields.get? q := by
  simp only [withIdentity, Dict.get?_set]

section Built

variable {P} {kind : RecordKind} {payload record fields : Record}

/-- The schema of a built record. -/
theorem get?_schema (h : buildRecord P kind payload = .ok record) :
    record.get? (py "schema") = some (.str (py kind.spec.schema)) := by
  obtain ⟨fields, id, hash, -, -, -, -, -, rfl⟩ := (buildRecord_ok P).mp h
  have hne := kind.reserved_nodup
  simp only [RecordKind.reserved, nodup_cons, mem_cons, not_or] at hne
  rw [Dict.get?_set_of_ne _ _ (Ne.symm hne.1.2.1), get?_withIdentity, if_neg (Ne.symm hne.1.1),
    if_pos rfl]

/-- The id of a built record. -/
theorem get?_idField (h : buildRecord P kind payload = .ok record)
    (hf : canonicalFields P payload = .ok fields) :
    ∃ id, recordId P kind fields = .ok id ∧
      record.get? (py kind.spec.idField) = some (.str id) := by
  obtain ⟨fields', id, hash, hf', -, -, hid, -, rfl⟩ := (buildRecord_ok P).mp h
  cases hf ▸ hf'
  have hne := kind.reserved_nodup
  simp only [RecordKind.reserved, nodup_cons, mem_cons, not_or] at hne
  exact ⟨id, hid, by
    rw [Dict.get?_set_of_ne _ _ (Ne.symm hne.2.1.1), get?_withIdentity, if_pos rfl]⟩

/-- The other fields of a built record. -/
theorem get?_field (h : buildRecord P kind payload = .ok record)
    (hf : canonicalFields P payload = .ok fields) {q : PyStr} (hq : q ∉ kind.reserved) :
    record.get? q = fields.get? q := by
  obtain ⟨fields', id, hash, hf', -, -, hid, -, rfl⟩ := (buildRecord_ok P).mp h
  cases hf ▸ hf'
  simp only [RecordKind.reserved, mem_cons, not_mem_nil, or_false, not_or] at hq
  rw [Dict.get?_set_of_ne _ _ (Ne.symm hq.2.2), get?_withIdentity, if_neg (Ne.symm hq.2.1),
    if_neg (Ne.symm hq.1)]

end Built

/-! ## When it is built -/

theorem encodable_of_digest {pre : PyStr} {v : PyVal} {n : Nat} {id : PyStr} (hpre : Encodable pre)
    (h : digest P pre v n = .ok id) : Encodable id := by
  simp only [digest, sha256Hex, map_ok] at h
  obtain ⟨_, ⟨s, -, rfl⟩, rfl⟩ := h
  simpa [hpre] using (P.sha256 s).encodable_take n

theorem returns_digest {pre : PyStr} {v : PyVal} {n : Nat} :
    Returns (digest P pre v n) ↔ Canonical P v := by
  simp [digest, sha256Hex, Canonical]

/-- A payload with distinct fields, none of which `build_record` adds itself. -/
def Unreserved (payload : Record) : Prop :=
  payload.keys.Nodup ∧ ∀ q ∈ kind.reserved, q ∉ payload.keys

theorem keys_canonicalFields {payload fields : Record} (h : canonicalFields P payload = .ok fields) :
    fields.keys = payload.keys := by
  rw [canonicalFields, mapM_ok_iff] at h
  induction h with
  | nil => rfl
  | cons hp _ ih =>
    obtain ⟨v, -, rfl⟩ := map_ok.mp hp
    simp [ih]

theorem withIdentity_eq {kind : RecordKind} {fields : Record} (hu : Unreserved kind fields)
    (id : PyStr) :
    withIdentity kind fields id =
      fields ++ [(py "schema", .str (py kind.spec.schema)), (py kind.spec.idField, .str id)] := by
  have hne := kind.reserved_nodup
  simp only [RecordKind.reserved, nodup_cons, mem_cons, not_or] at hne
  rw [withIdentity, Dict.set_eq_append _ (hu.2 _ (by simp [RecordKind.reserved])),
    Dict.set_eq_append]
  · simp
  · have := hu.2 (py kind.spec.idField) (by simp [RecordKind.reserved])
    simp only [Dict.keys, map_append, map_cons, map_nil, mem_append,
      mem_singleton, not_or]
    exact ⟨this, Ne.symm hne.1.1⟩

/-- The identity of a record that has the required fields. -/
theorem identityPayload_eq {kind : RecordKind} {fields : Record}
    (hreq : ∀ field ∈ kind.spec.required, Present fields (py field)) :
    ∃ identity, identityPayload kind fields = .ok identity ∧
      identity.keys = kind.spec.identity.map py ∧ ∀ p ∈ identity, p ∈ fields := by
  have hret : Returns (identityPayload kind fields) := by
    rw [identityPayload, returns_mapM]
    intro field hfield
    obtain ⟨v, hv, -⟩ := hreq field (kind.identity_subset_required hfield)
    rw [returns_map, returns_lookup, hv]
    rfl
  obtain ⟨identity, h⟩ := hret
  refine ⟨identity, h, ?_, ?_⟩
  · rw [identityPayload, mapM_ok_iff] at h
    generalize kind.spec.identity = names at h
    induction h with
    | nil => rfl
    | cons hp _ ih =>
      obtain ⟨v, -, rfl⟩ := map_ok.mp hp
      simp [ih]
  · intro p hp
    obtain ⟨field, -, hfield⟩ := mem_of_mapM_right h hp
    obtain ⟨v, hv, rfl⟩ := map_ok.mp hfield
    exact Dict.mem_of_get? (lookup_ok.mp hv)

/-- **When `build_record` returns**: the required fields are filled, the checks of the kind pass, and
every field has canonical bytes. -/
theorem returns_buildRecord {kind : RecordKind} {payload fields : Record}
    (hu : Unreserved kind payload) (hf : canonicalFields P payload = .ok fields) :
    Returns (buildRecord P kind payload) ↔
      (∀ field ∈ kind.spec.required, Present fields (py field)) ∧
        Returns (checkKind kind fields) ∧ ∀ p ∈ fields, Encodable p.1 ∧ Canonical P p.2 := by
  have hkeys := keys_canonicalFields P hf
  have hu' : Unreserved kind fields := by rwa [Unreserved, hkeys]
  have hlog : py "logical_hash" ∉ fields.keys := hu'.2 _ (by simp [RecordKind.reserved])
  have hfilt : ∀ id, (withIdentity kind fields id).filter (fun p => p.1 ≠ py "logical_hash") =
      withIdentity kind fields id := by
    intro id
    rw [withIdentity_eq hu', filter_eq_self]
    intro p hp
    have hne := kind.reserved_nodup
    simp only [RecordKind.reserved, nodup_cons, mem_cons, not_or] at hne
    rw [decide_eq_true_eq]
    rcases mem_append.mp hp with hp | hp
    · rintro heq
      exact hlog (heq ▸ mem_map_of_mem hp)
    · simp only [mem_cons, not_mem_nil, or_false] at hp
      rcases hp with rfl | rfl
      · exact hne.1.2.1
      · exact hne.2.1.1
  have hnd : ∀ id, (Dict.keys (withIdentity kind fields id)).Nodup := fun id =>
    Dict.nodup_keys_set (Dict.nodup_keys_set hu'.1 _ _) _ _
  have hhash : ∀ id, Python.Encodable id →
      (Returns (logicalRecordHash P (withIdentity kind fields id)) ↔
        ∀ p ∈ fields, Encodable p.1 ∧ Canonical P p.2) := by
    intro id hid
    rw [logicalRecordHash, hfilt, sha256Hex, returns_map, ← Canonical,
      canonical_ofRecord P (hnd id), withIdentity_eq hu', forall_mem_append]
    simp [hid]
  have hpre : Encodable (py kind.spec.pre) := encodable_py _
  constructor
  · rintro ⟨record, h⟩
    obtain ⟨fields', id, hash, hf', hreq, hkind, hid, hh, -⟩ := (buildRecord_ok P).mp h
    cases hf ▸ hf'
    obtain ⟨identity, hident, -⟩ := identityPayload_eq hreq
    rw [recordId, hident] at hid
    exact ⟨hreq, hkind, (hhash id (encodable_of_digest P hpre hid)).mp ⟨hash, hh⟩⟩
  · rintro ⟨hreq, hkind, hcanon⟩
    obtain ⟨identity, hident, hnames, hsub⟩ := identityPayload_eq hreq
    have hidnodup : identity.keys.Nodup := by
      rw [hnames]
      refine List.Nodup.map (fun _ _ h => py_inj.mp h) ?_
      cases kind <;> decide
    have hcan : Canonical P (PyVal.ofRecord identity) :=
      (canonical_ofRecord P hidnodup).mpr fun p hp => hcanon p (hsub p hp)
    have hdigest : Returns (digest P (py kind.spec.pre) (PyVal.ofRecord identity) 32) :=
      (returns_digest P).mpr hcan
    obtain ⟨id, hid⟩ := hdigest
    have hid' : recordId P kind fields = .ok id := by
      rw [recordId, hident]
      exact hid
    obtain ⟨hash, hh⟩ := (hhash id (encodable_of_digest P hpre hid)).mpr hcanon
    exact ⟨_, (buildRecord_ok P).mpr ⟨fields, id, hash, hf, hreq, hkind, hid', hh, rfl⟩⟩

/-! ## Regular payloads -/

/-- `k` is one of the fields whose lists are sorted. -/
theorem py_mem_map {s : String} {xs : List String} : py s ∈ xs.map py ↔ s ∈ xs :=
  mem_map_of_injective fun _ _ h => py_inj.mp h

theorem sortedByText_perm {xs ys : List PyVal} (h : sortedByText P xs = .ok ys) : ys.Perm xs := by
  rw [sortedByText, bind_ok] at h
  obtain ⟨keyed, hkeyed, h⟩ := h
  obtain rfl := Except.ok.inj h
  have hsnd : keyed.map Prod.snd = xs := by
    rw [mapM_ok_iff] at hkeyed
    clear h
    induction hkeyed with
    | nil => rfl
    | cons hx _ ih =>
      obtain ⟨t, -, rfl⟩ := map_ok.mp hx
      simp [ih]
  rw [← hsnd]
  exact (sortedBy_perm Prod.fst keyed).map Prod.snd

/-- Texts are sorted by themselves. -/
theorem sortedByText_strs (xs : List PyStr) :
    sortedByText P (xs.map .str) = .ok ((sortedBy id xs).map .str) := by
  have hkeyed : ((xs.map PyVal.str).mapM fun x =>
      ((x.strOf P).mapError Error.python).map fun t => (t, x)) =
        .ok (xs.map fun t => (t, PyVal.str t)) := by
    rw [mapM_map, mapM_ok_iff]
    induction xs with
    | nil => exact .nil
    | cons x xs ih => exact .cons rfl ih
  rw [sortedByText, hkeyed]
  simp only [bind, Except.bind]
  rw [sortedBy_map, map_map]
  rfl

variable {k : PyStr}

theorem canonicalFieldValue_of_notMem (v : PyVal) (hk : k ∉ sortedListFields.map py) :
    canonicalFieldValue P k v = .ok v := by
  unfold canonicalFieldValue
  exact if_neg hk

theorem canonicalFieldValue_strs (xs : List PyStr) (hk : k ∈ sortedListFields.map py) :
    canonicalFieldValue P k (.ofStrs xs) = .ok (.ofStrs (sortedBy id xs)) := by
  unfold canonicalFieldValue
  rw [if_pos hk]
  simp only [PyVal.ofStrs, sortedByText_strs, Except.map]

/-- A canonical field is the field, or the list of the field in another order. -/
theorem canonicalFieldValue_ok {v v' : PyVal} (h : canonicalFieldValue P k v = .ok v') :
    v' = v ∨ ∃ xs ys, v = .list xs ∧ v' = .list ys ∧ ys.Perm xs := by
  unfold canonicalFieldValue at h
  split_ifs at h with hk
  · cases v with
    | list xs =>
      obtain ⟨ys, hys, rfl⟩ := map_ok.mp h
      exact .inr ⟨xs, ys, rfl, rfl, sortedByText_perm P hys⟩
    | _ => cases h
  · exact .inl (Except.ok.inj h).symm

theorem canonical_of_canonicalFieldValue {v v' : PyVal} (h : canonicalFieldValue P k v = .ok v') :
    Canonical P v' ↔ Canonical P v := by
  rcases canonicalFieldValue_ok P h with rfl | ⟨xs, ys, rfl, rfl, hperm⟩
  · rfl
  · simp only [canonical_list, hperm.mem_iff]

/-- Reading a canonical field. -/
theorem get?_canonicalFields {payload fields : Record} (h : canonicalFields P payload = .ok fields)
    (q : PyStr) :
    (payload.get? q = none ∧ fields.get? q = none) ∨
      ∃ v v', payload.get? q = some v ∧ fields.get? q = some v' ∧
        canonicalFieldValue P q v = .ok v' := by
  rw [canonicalFields, mapM_ok_iff] at h
  induction h with
  | nil => exact .inl ⟨rfl, rfl⟩
  | @cons p _ payload _ hp _ ih =>
    obtain ⟨k, v⟩ := p
    obtain ⟨v', hv', rfl⟩ := map_ok.mp hp
    by_cases hq : k = q
    · subst hq
      exact .inr ⟨v, v', by simp, by simp, hv'⟩
    · simpa [hq] using ih

/-- A field that is no sorted list is kept. -/
theorem get?_canonicalFields_of_notMem {payload fields : Record}
    (h : canonicalFields P payload = .ok fields) {q : PyStr} (hq : q ∉ sortedListFields.map py) :
    fields.get? q = payload.get? q := by
  rcases get?_canonicalFields P h q with ⟨hp, hf⟩ | ⟨v, v', hp, hf, hv⟩
  · rw [hp, hf]
  · rw [canonicalFieldValue_of_notMem P v hq] at hv
    rw [hp, hf, Except.ok.inj hv]

/-- The canonical fields of a list of texts. -/
theorem get?_canonicalFields_strs {payload fields : Record}
    (h : canonicalFields P payload = .ok fields) {q : PyStr} (hq : q ∈ sortedListFields.map py)
    {xs : List PyStr} (hxs : payload.get? q = some (.ofStrs xs)) :
    fields.get? q = some (.ofStrs (sortedBy id xs)) := by
  rcases get?_canonicalFields P h q with ⟨hp, -⟩ | ⟨v, v', hp, hf, hv⟩
  · rw [hp] at hxs
    cases hxs
  · cases hp ▸ hxs
    rw [canonicalFieldValue_strs P xs hq] at hv
    rw [hf, Except.ok.inj hv]

/-- A text that is neither empty nor unencodable. -/
def Filled (s : PyStr) : Prop := s ≠ [] ∧ Encodable s

instance (s : PyStr) : Decidable (Filled s) := inferInstanceAs (Decidable (_ ∧ _))

/-- A payload of the shadow authority that only its values can make fail. -/
structure Regular (kind : RecordKind) (payload : Record) : Prop where
  unreserved : Unreserved kind payload
  lists : ∀ p ∈ payload, p.1 ∈ sortedListFields.map py → ∃ xs, p.2 = .ofStrs xs
  checks : ∀ fields : Record, fields.keys = payload.keys → Returns (checkKind kind fields)
  authority : payload.get? (py "authority") =
    some (.str (py "INACTIVE_NONCANONICAL_SHADOW"))

/-- Every required field is filled and every field has canonical bytes. -/
structure Complete (kind : RecordKind) (payload : Record) : Prop where
  required : ∀ field ∈ kind.spec.required, Present payload (py field)
  canonical : ∀ p ∈ payload, Encodable p.1 ∧ Canonical P p.2

variable {P} in
theorem complete_iff {kind : RecordKind} {payload : Record} :
    Complete P kind payload ↔ (∀ field ∈ kind.spec.required, Present payload (py field)) ∧
      ∀ p ∈ payload, Encodable p.1 ∧ Canonical P p.2 :=
  ⟨fun h => ⟨h.required, h.canonical⟩, fun h => ⟨h.1, h.2⟩⟩

namespace Regular

variable {P} {kind : RecordKind} {payload : Record}

theorem returns_canonicalFields (hr : Regular kind payload) :
    Returns (canonicalFields P payload) := by
  rw [canonicalFields, returns_mapM]
  intro p hp
  rw [returns_map]
  by_cases hk : p.1 ∈ sortedListFields.map py
  · obtain ⟨xs, hxs⟩ := hr.lists p hp hk
    rw [hxs, canonicalFieldValue_strs P xs hk]
    exact returns_ok _
  · rw [canonicalFieldValue_of_notMem P p.2 hk]
    exact returns_ok _

/-- **A regular payload is built iff it is complete.** -/
theorem returns_buildRecord (hr : Regular kind payload) :
    Returns (buildRecord P kind payload) ↔ Complete P kind payload := by
  obtain ⟨fields, hf⟩ := hr.returns_canonicalFields (P := P)
  have hkind := hr.checks fields (keys_canonicalFields P hf)
  have hpresent : ∀ q, Present fields q ↔ Present payload q := by
    intro q
    rcases get?_canonicalFields P hf q with ⟨hp, hf'⟩ | ⟨v, v', hp, hf', hv⟩
    · simp [Present, hp, hf']
    · rcases canonicalFieldValue_ok P hv with rfl | ⟨xs, ys, rfl, rfl, -⟩
      · simp [Present, hp, hf']
      · simp [Present, hp, hf']
  have hcanon : (∀ p ∈ fields, Encodable p.1 ∧ Canonical P p.2) ↔
      ∀ p ∈ payload, Encodable p.1 ∧ Canonical P p.2 := by
    constructor
    · intro h p hp
      obtain ⟨q, hq, hpq⟩ := mem_of_mapM_left hf hp
      obtain ⟨v, hv, rfl⟩ := map_ok.mp hpq
      exact ⟨(h _ hq).1, (canonical_of_canonicalFieldValue P hv).mp (h _ hq).2⟩
    · intro h q hq
      obtain ⟨p, hp, hpq⟩ := mem_of_mapM_right hf hq
      obtain ⟨v, hv, rfl⟩ := map_ok.mp hpq
      exact ⟨(h _ hp).1, (canonical_of_canonicalFieldValue P hv).mpr (h _ hp).2⟩
  rw [C2e.returns_buildRecord P hr.unreserved hf, hcanon]
  simp only [hpresent]
  exact ⟨fun h => ⟨h.1, h.2.2⟩, fun h => ⟨h.1, hkind, h.2⟩⟩

end Regular

/-! ## Ids -/

theorem pre_append_not_prefix {kind kind' : RecordKind} (h : kind ≠ kind') :
    ¬ (kind.spec.pre ++ ".").toByteArray.data.toList <+:
      (kind'.spec.pre ++ ".").toByteArray.data.toList := by
  cases kind <;> cases kind' <;> first | exact absurd rfl h | decide +kernel

theorem prefix_of_recordId {kind : RecordKind} {fields : Record} {id : PyStr}
    (h : recordId P kind fields = .ok id) : py (kind.spec.pre ++ ".") <+: id := by
  rw [recordId, bind_ok] at h
  obtain ⟨identity, -, h⟩ := h
  simp only [digest, sha256Hex, map_ok] at h
  obtain ⟨_, ⟨s, -, rfl⟩, rfl⟩ := h
  refine ⟨(P.sha256 s).text.take 32, ?_⟩
  simp [py_append]

/-- **Records of different kinds never share an id.** -/
theorem recordId_ne_of_kind_ne {kind kind' : RecordKind} (hne : kind ≠ kind')
    {fields fields' : Record} {id id' : PyStr} (h : recordId P kind fields = .ok id)
    (h' : recordId P kind' fields' = .ok id') : id ≠ id' := by
  rintro rfl
  have hinj := CodePoint.ofByte_injective
  rcases prefix_or_prefix_of_prefix (prefix_of_recordId P h) (prefix_of_recordId P h') with
    hp | hp
  · exact pre_append_not_prefix hne ((prefix_map_iff_of_injective hinj).mp hp)
  · exact pre_append_not_prefix (Ne.symm hne) ((prefix_map_iff_of_injective hinj).mp hp)

end OvcReplay.C2e
