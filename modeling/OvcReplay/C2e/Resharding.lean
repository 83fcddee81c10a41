import OvcReplay.C2e.SourceReplay

/-! # Resharding a stream of C2E v0.2

`persistence.py`: the manifest of a stream, and `recombine_partitions`, which builds it from records
that were distributed over declared partitions. -/

namespace OvcReplay.C2e

open List Python

variable (P : Platform)

/-- What a stream manifest binds besides the records. -/
structure StreamBinding where
  sourceBinding : Record
  boundaryPackId : PyStr
  schemaIds : List PyStr
  codeHashes : List PyStr

/-- `count_payload`: the number of records, and how many there are of each schema. -/
def countPayload (schemas : List PyStr) : Record :=
  (sortedBy Prod.fst (Dict.tally schemas)).foldl (fun d p => d.set p.1 (.int p.2))
    [(py "attempted_records", .int schemas.length), (py "emitted_records", .int schemas.length)]

/-- The payload of the manifest of records with these schemas, ids and hashes. -/
def streamPayload (binding : StreamBinding) (schemas ids hashes : List PyStr)
    (missingness : List Record) : Record :=
  [(py "source_binding", .ofRecord binding.sourceBinding),
    (py "boundary_pack_id", .str binding.boundaryPackId),
    (py "schema_ids", .ofStrs (sortedSet binding.schemaIds)),
    (py "code_hashes", .ofStrs (sortedSet binding.codeHashes)),
    (py "ordered_record_ids", .ofStrs ids), (py "ordered_record_hashes", .ofStrs hashes),
    (py "counts", .ofRecord (countPayload schemas)),
    (py "missingness", .list (missingness.map .ofRecord)),
    (py "authority", .str (py "INACTIVE_NONCANONICAL_SHADOW"))]

/-- `build_stream_manifest`. -/
def buildStreamManifest (binding : StreamBinding) (missingness records : List Record) :
    Except Error Record := do
  let ordered ← canonicalRecordOrder P records
  let schemas ← ordered.mapM fun record => do strOf P (← lookup record (py "schema"))
  let ids ← ordered.mapM (semanticRecordId P)
  let hashes ← ordered.mapM logicalHash
  buildRecord P .streamManifest (streamPayload binding schemas ids hashes missingness)

/-- What the loop over the partitions has collected. -/
structure Recovered where
  seen : List PyStr
  flattened : List Record

/-- The body of that loop. -/
def Recovered.visit (recovered : Recovered) (record : Record) : Except Error Recovered := do
  let id ← semanticRecordId P record
  check (id ∉ recovered.seen) (.persistence (py "RECOVERY_DUPLICATE_SEMANTIC_RECORD"))
  return ⟨recovered.seen ++ [id], recovered.flattened ++ [record]⟩

/-- The records of the partitions, partition after partition in the order of their ids. -/
def partitionRows (partitions : Dict PyStr (List Record)) : List Record :=
  (sortedBy id partitions.keys).flatMap fun id => (partitions.get? id).getD []

/-- `recombine_partitions`. -/
def recombinePartitions (partitions : Dict PyStr (List Record)) (expectedPartitionIds : List PyStr)
    (binding : StreamBinding) : Except Error Record := do
  check (sortedBy id partitions.keys = sortedSet expectedPartitionIds)
    (.persistence (py "RECOVERY_PARTITION_SET_MISMATCH"))
  let recovered ← (partitionRows partitions).foldlM (Recovered.visit P) ⟨[], []⟩
  buildStreamManifest P binding [] recovered.flattened

/-! ## The order of arrival -/

variable {P} {records : List Record} {partitions : Dict PyStr (List Record)}
  {expectedPartitionIds : List PyStr} {binding : StreamBinding}

/-- The semantic ids of the records are pairwise distinct. -/
def DistinctIds (P : Platform) (records : List Record) : Prop :=
  ∃ ids, records.mapM (semanticRecordId P) = .ok ids ∧ ids.Nodup

variable {records' : List Record} {manifest : Record} {kind : RecordKind} {text : PyStr}

theorem DistinctIds.perm (h : DistinctIds P records)
    (hperm : records.Perm records') : DistinctIds P records' := by
  obtain ⟨ids, hids, hnd⟩ := h
  have hret : Returns (records'.mapM (semanticRecordId P)) := by
    rw [returns_mapM]
    intro record hmem
    obtain ⟨id, -, hid⟩ := mem_of_mapM_left hids (hperm.mem_iff.mpr hmem)
    exact ⟨id, hid⟩
  obtain ⟨ids', hids'⟩ := hret
  exact ⟨ids', hids', (perm_of_mapM hperm hids hids').nodup_iff.mp hnd⟩

/-- Records with distinct ids are told apart by their ids. -/
theorem DistinctIds.eq_of_id (h : DistinctIds P records) {record record' : Record}
    (hmem : record ∈ records) (hmem' : record' ∈ records) {id : PyStr}
    (hid : semanticRecordId P record = .ok id) (hid' : semanticRecordId P record' = .ok id) :
    record = record' := by
  obtain ⟨ids, hids, hnd⟩ := h
  rw [mapM_ok_iff] at hids
  induction hids with
  | nil => simp at hmem
  | @cons first i rest is hfst hrest ih =>
    rw [nodup_cons] at hnd
    -- an id of the rest is not the one of the first record
    have hnot : ∀ r ∈ rest, semanticRecordId P r ≠ .ok i := by
      intro r hr hi
      obtain ⟨j, hj, hrj⟩ := mem_of_forall₂_left hrest hr
      exact hnd.1 (Except.ok.inj (hi.symm.trans hrj) ▸ hj)
    rcases mem_cons.mp hmem with rfl | hr <;> rcases mem_cons.mp hmem' with rfl | hr'
    · rfl
    · exact absurd (hid'.trans (hid.symm.trans hfst)) (hnot _ hr')
    · exact absurd (hid.trans (hid'.symm.trans hfst)) (hnot _ hr)
    · exact ih hr hr' hnd.2

/-- **Records with distinct ids have one canonical order**, however they arrive. -/
theorem canonicalRecordOrder_of_perm {ordered : List Record} (h : DistinctIds P records)
    (hperm : records.Perm records') (hord : canonicalRecordOrder P records = .ok ordered) :
    canonicalRecordOrder P records' = .ok ordered := by
  obtain ⟨keyed, hkeyed, rfl⟩ := canonicalRecordOrder_ok.mp hord
  have hret : Returns (canonicalRecordOrder P records') := by
    rw [returns_canonicalRecordOrder]
    intro record hmem
    exact returns_canonicalRecordOrder.mp ⟨_, hord⟩ record (hperm.mem_iff.mpr hmem)
  obtain ⟨ordered', hord'⟩ := hret
  obtain ⟨keyed', hkeyed', rfl⟩ := canonicalRecordOrder_ok.mp hord'
  have hsort : sortedBy Prod.fst keyed = sortedBy Prod.fst keyed' := by
    refine sortedBy_eq_of_perm ?_ (perm_of_mapM hperm hkeyed hkeyed')
    rintro ⟨key, record⟩ hp ⟨key', record'⟩ hp' heq
    obtain rfl : key = key' := heq
    -- the key of a record ends in its id and its hash
    obtain ⟨r, hr, hrp⟩ := mem_of_mapM_right hkeyed hp
    obtain ⟨r', hr', hrp'⟩ := mem_of_mapM_right hkeyed hp'
    obtain ⟨k, hk, hkr⟩ := map_ok.mp hrp
    obtain ⟨k', hk', hkr'⟩ := map_ok.mp hrp'
    cases hkr
    cases hkr'
    obtain ⟨_, _, _, id, _, rfl, hid, -⟩ := canonicalKey_ok hk
    obtain ⟨_, _, _, id', _, heq, hid', -⟩ := canonicalKey_ok hk'
    obtain rfl : id = id' := by simp only [List.cons.injEq] at heq; exact heq.2.2.2.1
    rw [h.eq_of_id hr hr' hid hid']
  rw [hord', hsort]

/-- **The manifest of records with distinct ids does not depend on how they arrive.** -/
theorem buildStreamManifest_of_perm (h : DistinctIds P records)
    (hperm : records.Perm records') (missingness : List Record) (manifest : Record) :
    buildStreamManifest P binding missingness records = .ok manifest ↔
      buildStreamManifest P binding missingness records' = .ok manifest := by
  simp only [buildStreamManifest, bind_ok]
  constructor
  · rintro ⟨ordered, hord, hrest⟩
    exact ⟨ordered, canonicalRecordOrder_of_perm h hperm hord, hrest⟩
  · rintro ⟨ordered, hord, hrest⟩
    exact ⟨ordered, canonicalRecordOrder_of_perm (h.perm hperm) hperm.symm hord, hrest⟩

/-! ## The loop over the partitions -/

/-- The loop passes the records on unless two of them share an id. -/
theorem foldlM_visit_ok {recovered recovered' : Recovered} :
    records.foldlM (Recovered.visit P) recovered = .ok recovered' ↔
      ∃ ids, records.mapM (semanticRecordId P) = .ok ids ∧ ids.Nodup ∧
        (∀ id ∈ ids, id ∉ recovered.seen) ∧
        recovered' = ⟨recovered.seen ++ ids, recovered.flattened ++ records⟩ := by
  induction records generalizing recovered with
  | nil =>
    simp only [foldlM_nil, pure_ok, mapM_nil]
    constructor
    · rintro rfl
      exact ⟨[], rfl, .nil, by simp, by simp⟩
    · rintro ⟨ids, rfl, -, -, rfl⟩
      simp
  | cons record records ih =>
    rw [foldlM_cons, bind_ok]
    simp only [Recovered.visit, bind_ok, check_ok, pure_ok]
    simp only [ih, mapM_cons_ok]
    constructor
    · rintro ⟨_, ⟨id, hid, -, hnew, rfl⟩, ids, hids, hnd, hfresh, rfl⟩
      simp only [mem_append, mem_singleton, not_or] at hfresh
      refine ⟨id :: ids, ⟨id, ids, hid, hids, rfl⟩, ?_, ?_, by simp⟩
      · exact nodup_cons.mpr ⟨fun hmem => (hfresh id hmem).2 rfl, hnd⟩
      · rintro i hi
        rcases mem_cons.mp hi with rfl | hi
        · exact hnew
        · exact (hfresh i hi).1
    · rintro ⟨_, ⟨id, ids, hid, hids, rfl⟩, hnd, hfresh, rfl⟩
      rw [nodup_cons] at hnd
      refine ⟨_, ⟨id, hid, (), hfresh id (by simp), rfl⟩, ids, hids, hnd.2, ?_, by simp⟩
      intro i hi
      simp only [mem_append, mem_singleton, not_or]
      refine ⟨hfresh i (by simp [hi]), ?_⟩
      rintro rfl
      exact hnd.1 hi

/-- **When a recombination returns**: the partitions are the declared ones, no two of their records
share an id, and the records have a manifest. -/
theorem recombinePartitions_ok :
    recombinePartitions P partitions expectedPartitionIds binding = .ok manifest ↔
      sortedBy id partitions.keys = sortedSet expectedPartitionIds ∧
        DistinctIds P (partitionRows partitions) ∧
        buildStreamManifest P binding [] (partitionRows partitions) = .ok manifest := by
  simp only [recombinePartitions, bind_ok, check_ok, foldlM_visit_ok]
  constructor
  · rintro ⟨-, hdeclared, recovered, ⟨ids, hids, hnd, -, rfl⟩, hmanif⟩
    exact ⟨hdeclared, ⟨ids, hids, hnd⟩, by simpa using hmanif⟩
  · rintro ⟨hdeclared, ⟨ids, hids, hnd⟩, hmanif⟩
    exact ⟨(), hdeclared, _, ⟨ids, hids, hnd, by simp, rfl⟩, by simpa using hmanif⟩

/-- The rows of distinct partitions are their records in another order. -/
theorem partitionRows_perm (hkeys : partitions.keys.Nodup) :
    (partitionRows partitions).Perm (partitions.flatMap Prod.snd) := by
  have hperm := (sortedBy_perm id partitions.keys).flatMap_right
    fun id => (partitions.get? id).getD []
  refine hperm.trans (Perm.of_eq ?_)
  rw [Dict.keys, flatMap_map]
  refine flatMap_congr fun p hp => ?_
  rw [Dict.get?_of_mem hkeys hp]
  rfl

/-! ## What a manifest binds -/

/-- The bytes the logical hash of a record is taken of. -/
def hashedBytes (P : Platform) (record : Record) : Except Error PyStr :=
  canonicalBytes P (.ofRecord (record.filter fun p => p.1 ≠ py "logical_hash"))

/-- A built record carries the hash of its bytes. -/
theorem logicalHash_of_built {payload record : Record}
    (h : buildRecord P kind payload = .ok record) : ∃ text, hashedBytes P record = .ok text ∧
      record.get? (py "logical_hash") = some (.str (P.sha256 text).text) := by
  obtain ⟨fields, id, hash, -, -, -, -, hhash, rfl⟩ := (buildRecord_ok P).mp h
  obtain ⟨text, htext, rfl⟩ := map_ok.mp hhash
  refine ⟨text, ?_, Dict.get?_set_self _ _ _⟩
  rw [hashedBytes, Dict.filter_set]
  exact htext

/-- `validate_record` accepts the record as one of some kind. -/
def Valid (P : Platform) (record : Record) : Prop :=
  ∃ kind, Returns (validateRecord P kind record)

/-- The text a record stands for: the hashed bytes of the record `validate_record` makes of it. -/
def StandsFor (P : Platform) (record : Record) (text : PyStr) : Prop :=
  ∃ kind expected, validateRecord P kind record = .ok expected ∧ hashedBytes P expected = .ok text

theorem validateRecord_ok {record expected : Record}
    (h : validateRecord P kind record = .ok expected) :
    ∃ payload, buildRecord P kind payload = .ok expected ∧
      record.get? (py "schema") = expected.get? (py "schema") ∧
      record.get? (py "logical_hash") = expected.get? (py "logical_hash") := by
  simp only [validateRecord, bind_ok, requireModel, check_ok, pure_ok] at h
  obtain ⟨_, hbuilt, -, hsch, -, -, -, hhash, rfl⟩ := h
  exact ⟨_, hbuilt, hsch, hhash⟩

variable {record : Record}

theorem Valid.exists_standsFor (h : Valid P record) : ∃ text, StandsFor P record text := by
  obtain ⟨kind, expected, hexp⟩ := h
  obtain ⟨payload, hbuilt, -⟩ := validateRecord_ok hexp
  obtain ⟨text, htext, -⟩ := logicalHash_of_built hbuilt
  exact ⟨text, kind, expected, hexp, htext⟩

/-- A valid record carries the hash of the text it stands for. -/
theorem StandsFor.logicalHash (h : StandsFor P record text) :
    C2e.logicalHash record = .ok (P.sha256 text).text := by
  obtain ⟨kind, expected, hexp, htext⟩ := h
  obtain ⟨payload, hbuilt, -, hhash⟩ := validateRecord_ok hexp
  obtain ⟨text', htext', hget⟩ := logicalHash_of_built hbuilt
  cases htext.symm.trans htext'
  exact requireText_ok.mpr (hhash.trans hget)

theorem RecordKind.schema_injective {kind' : RecordKind}
    (h : kind.spec.schema = kind'.spec.schema) : kind = kind' := by
  cases kind <;> cases kind' <;> first | rfl | exact absurd h (by decide +kernel)

/-- A valid record stands for one text. -/
theorem StandsFor.unique {text' : PyStr} (h : StandsFor P record text)
    (h' : StandsFor P record text') : text = text' := by
  obtain ⟨kind, expected, hexp, htext⟩ := h
  obtain ⟨kind', expected', hexp', htext'⟩ := h'
  obtain ⟨_, hbuilt, hsch, -⟩ := validateRecord_ok hexp
  obtain ⟨_, hbuilt', hsch', -⟩ := validateRecord_ok hexp'
  rw [get?_schema hbuilt] at hsch
  rw [get?_schema hbuilt', hsch] at hsch'
  obtain rfl : kind = kind' :=
    RecordKind.schema_injective (py_inj.mp (PyVal.str.inj (Option.some.inj hsch')))
  cases hexp.symm.trans hexp'
  exact Except.ok.inj (htext.symm.trans htext')

/-- The records can be paired so that the two of each pair stand for one text. -/
def SameRecords (P : Platform) (records records' : List Record) : Prop :=
  ∃ paired paired', paired.Perm records ∧ paired'.Perm records' ∧
    Forall₂ (fun record record' => ∃ text, StandsFor P record text ∧ StandsFor P record' text)
      paired paired'

/-- **Valid records with the same hashes are the same records.** -/
theorem forall₂_of_logicalHash {texts : PyStr → Prop} (hfree : P.CollisionFreeOn texts)
    {records : List Record} {hashes : List PyStr}
    (hvalid : ∀ record ∈ records ++ records', Valid P record)
    (htexts : ∀ record ∈ records ++ records', ∀ text, StandsFor P record text → texts text)
    (h : records.mapM logicalHash = .ok hashes) (h' : records'.mapM logicalHash = .ok hashes) :
    Forall₂ (fun record record' => ∃ text, StandsFor P record text ∧ StandsFor P record' text)
      records records' := by
  rw [mapM_ok_iff] at h h'
  induction h generalizing records' with
  | nil =>
    cases h'
    exact .nil
  | @cons record hash records hashes hhash _ ih =>
    cases h' with
    | @cons record' _ records' _ hhash' hrest' =>
      refine .cons ?_ (ih ?_ ?_ hrest')
      · obtain ⟨text, htext⟩ := (hvalid record (by simp)).exists_standsFor
        obtain ⟨text', htext'⟩ := (hvalid record' (by simp)).exists_standsFor
        have heq : (P.sha256 text).text = (P.sha256 text').text :=
          (Except.ok.inj (htext.logicalHash.symm.trans hhash)).trans
            (Except.ok.inj (htext'.logicalHash.symm.trans hhash')).symm
        obtain rfl := hfree text text' (htexts record (by simp) text htext)
          (htexts record' (by simp) text' htext') (HexDigest.ext heq)
        exact ⟨text, htext, htext'⟩
      · intro r hr
        exact hvalid r (by simp at hr ⊢; tauto)
      · intro r hr
        exact htexts r (by simp at hr ⊢; tauto)

/-- What a manifest says of its records, and the text its own hash is taken of. -/
theorem buildStreamManifest_ok {missingness : List Record}
    (h : buildStreamManifest P binding missingness records = .ok manifest) :
    ∃ (ordered : List Record) (hashes : List PyStr) (text : PyStr), ordered.Perm records ∧
      ordered.mapM logicalHash = .ok hashes ∧
      manifest.get? (py "ordered_record_hashes") = some (.ofStrs hashes) ∧
      manifest.keys.Nodup ∧ hashedBytes P manifest = .ok text ∧
      manifest.get? (py "logical_hash") = some (.str (P.sha256 text).text) := by
  simp only [buildStreamManifest, bind_ok] at h
  obtain ⟨ordered, hord, schemas, -, ids, -, hashes, hhashes, hbuilt⟩ := h
  obtain ⟨text, htext, hget⟩ := logicalHash_of_built hbuilt
  refine ⟨ordered, hashes, text, (canonicalRecordOrder_spec hord).1, hhashes, ?_, ?_, htext,
    hget⟩
  · obtain ⟨fields, _, _, hf, -⟩ := (buildRecord_ok P).mp hbuilt
    rw [get?_field hbuilt hf (by simp [RecordKind.reserved, RecordKind.spec]),
      get?_canonicalFields_of_notMem P hf (by simp [sortedListFields])]
    simp [streamPayload]
  · obtain ⟨fields, id, hash, hf, -, -, -, -, rfl⟩ := (buildRecord_ok P).mp hbuilt
    have hflds : fields.keys.Nodup := by
      rw [keys_canonicalFields P hf]
      simp [streamPayload, Dict.keys]
    exact Dict.nodup_keys_set (Dict.nodup_keys_set (Dict.nodup_keys_set hflds _ _) _ _) _ _

/-- Manifests with one hashed text list the same hashes. -/
theorem orderedHashes_eq {manifest' : Record} {hashes hashes' : List PyStr}
    (hkeys : manifest.keys.Nodup) (hkeys' : manifest'.keys.Nodup)
    (htext : hashedBytes P manifest = .ok text) (htext' : hashedBytes P manifest' = .ok text)
    (h : manifest.get? (py "ordered_record_hashes") = some (.ofStrs hashes))
    (h' : manifest'.get? (py "ordered_record_hashes") = some (.ofStrs hashes')) :
    hashes = hashes' := by
  have hne : py "logical_hash" ≠ py "ordered_record_hashes" := by simp
  obtain ⟨j, hj, -⟩ := (canonicalBytes_ok P).mp htext
  have htree := canonicalTree_eq_of_bytes htext htext'
  have hfield := canonicalTree_field_eq (Dict.nodup_keys_filter hkeys _)
    (Dict.nodup_keys_filter hkeys' _) hj (htree ▸ hj)
    ((Dict.get?_filter_ne hne).trans h) ((Dict.get?_filter_ne hne).trans h')
  rw [canonicalTree_ofStrs, canonicalTree_ofStrs, Except.ok.injEq, Json.arr.injEq] at hfield
  exact map_injective_iff.mpr (fun _ _ h => Json.str.inj h) hfield

/-! ## Resharding -/

/-- The texts whose hashes decide whether two streams are the same. -/
def StreamText (P : Platform) (manifest manifest' : Record) (records : List Record) (text : PyStr) :
    Prop :=
  hashedBytes P manifest = .ok text ∨ hashedBytes P manifest' = .ok text ∨
    ∃ record ∈ records, StandsFor P record text

/-- What a boundary event of an episode may say. -/
def samplePayload (reason : String) : Record :=
  [(py "episode_ids", .ofStrs [py "E0"]), (py "candidate_ids", .ofStrs [py "K0"]),
    (py "lifecycle_action", .str (py "TERMINATE")), (py "priority_class", .str (py "P1")),
    (py "compatibility_disposition", .str (py "COMPATIBLE")),
    (py "effective_time", .str (py "t0")), (py "confirmation_time", .str (py "t0")),
    (py "first_valid_time", .str (py "t0")), (py "collision_disposition", .str (py "NONE")),
    (py "reason_codes", .ofStrs [py reason]),
    (py "authority", .str (py "INACTIVE_NONCANONICAL_SHADOW"))]

/-- What the streams of these examples are bound to. -/
def sampleBinding : StreamBinding where
  sourceBinding := []
  boundaryPackId := py "PACK"
  schemaIds := []
  codeHashes := []

/-- The record with other reasons, and the hash it had. -/
def altered (record : Record) : Record :=
  record.set (py "reason_codes") (.ofStrs [py "FORGED"])

/-- What the record whose reasons are altered comes to when it replaces the valid one. -/
def Undetected (record : Record) : Prop :=
  Returns (validateRecord .reference .boundaryEvent record) ∧
    Returns (semanticRecordId .reference record) ∧ altered record ≠ record ∧
    Returns (buildStreamManifest .reference sampleBinding [] [record]) ∧
    (recombinePartitions .reference [(py "A", [altered record])] [py "A"]
      sampleBinding).toOption = (buildStreamManifest .reference sampleBinding [] [record]).toOption

instance (record : Record) : Decidable (Undetected record) :=
  inferInstanceAs (Decidable (_ ∧ _ ∧ _ ∧ _ ∧ _))

/-- What a valid record of its own stream comes to. -/
def Sealed (record : Record) : Prop :=
  Returns (validateRecord .reference .boundaryEvent record) ∧
    Returns (semanticRecordId .reference record) ∧
    ((buildStreamManifest .reference sampleBinding [] [record]).toOption.any fun manifest =>
      (hashedBytes .reference manifest).toOption.any fun text =>
        (validateRecord .reference .boundaryEvent record).toOption.any fun expected =>
          (hashedBytes .reference expected).toOption.any fun text' =>
            decide ((Platform.reference.sha256 text).text ≠
              (Platform.reference.sha256 text').text)) = true

instance (record : Record) : Decidable (Sealed record) :=
  inferInstanceAs (Decidable (_ ∧ _ ∧ _))

end OvcReplay.C2e
