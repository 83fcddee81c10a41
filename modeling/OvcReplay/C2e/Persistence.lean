import OvcReplay.C2e.Models

/-! # Canonical record order of C2E v0.2

`persistence.py`: the records of a stream in an order that does not depend on how they were emitted,
and the hash of a prefix in that order. -/

namespace OvcReplay.C2e

open Python

variable (P : Platform)

/-- `_ID_FIELDS`. -/
def idFields : Dict PyStr PyStr :=
  [(py "c2e_episode_genesis/v0_2", py "episode_id"),
    (py "c2e_episode_snapshot/v0_2", py "snapshot_id"),
    (py "c2e_phase_segment/v0_2", py "phase_segment_id"),
    (py "c2e_boundary_event/v0_2", py "boundary_event_id"),
    (py "c2e_lineage_edge/v0_2", py "lineage_edge_id"),
    (py "c2e_membership_delta/v0_2", py "membership_delta_id"),
    (py "c2e_remap_record/v0_2", py "remap_record_id")]

/-- `record.get(field, default)`. -/
def getOr (record : Record) (field : String) (default : PyVal) : PyVal :=
  (record.get? (py field)).getD default

/-- `semantic_record_id`. -/
def semanticRecordId (record : Record) : Except Error PyStr := do
  let schema ← strOf P (getOr record "schema" (.str []))
  match (idFields.get? schema).bind record.get? with
  | some (.str id) => .ok id
  | _ => .error (.persistence (py "SEMANTIC_RECORD_ID_NOT_FOUND:" ++ schema))

/-- A field that must be a text. -/
def requireText (record : Record) (field : String) (e : Error) : Except Error PyStr :=
  match record.get? (py field) with
  | some (.str t) => .ok t
  | _ => .error e

/-- `record["logical_hash"]`, a text. -/
def logicalHash (record : Record) : Except Error PyStr :=
  requireText record "logical_hash" (.persistence (py "LOGICAL_HASH_REQUIRED"))

/-- The sort key of a record; a tuple of texts is compared like the list of them. -/
def canonicalKey (record : Record) : Except Error (List PyStr) := do
  let firstValidTime ← strOf P (getOr record "first_valid_time" (.str []))
  let time ← strOf P (getOr record "effective_time"
    (getOr record "birth_effective_time" (getOr record "as_of_time" (.str []))))
  let schema ← strOf P (getOr record "schema" (.str []))
  let id ← semanticRecordId P record
  let hash ← logicalHash record
  return [firstValidTime, time, schema, id, hash]

/-- `canonical_record_order`. -/
def canonicalRecordOrder (records : List Record) : Except Error (List Record) := do
  forM records fun record => do
    let _ ← semanticRecordId P record
    let _ ← logicalHash record
  let keyed ← records.mapM fun record => (canonicalKey P record).map fun key => (key, record)
  return (sortedBy Prod.fst keyed).map Prod.snd

/-- `semantic_prefix_hash`. -/
def semanticPrefixHash (records : List Record) : Except Error PyStr := do
  let ordered ← canonicalRecordOrder P records
  let hashes ← ordered.mapM logicalHash
  sha256Hex P (.ofStrs hashes)

variable {record : Record}

theorem requireText_ok {field : String} {e : Error} {t : PyStr} :
    requireText record field e = .ok t ↔ record.get? (py field) = some (.str t) := by
  unfold requireText
  split
  · rename_i s hs
    simp [hs]
  · rename_i hno
    constructor
    · nofun
    · exact fun h => absurd h (hno t)

/-! ## What the order is -/

variable {P}

/-- These records, in this order, are sorted by their canonical keys. -/
def InCanonicalOrder (P : Platform) (records : List Record) : Prop :=
  ∃ keys, records.mapM (canonicalKey P) = .ok keys ∧ keys.Pairwise (· ≤ ·)

theorem canonicalKey_ok {key : List PyStr} (h : canonicalKey P record = .ok key) :
    ∃ firstValidTime time schema id hash, key = [firstValidTime, time, schema, id, hash] ∧
      semanticRecordId P record = .ok id ∧ logicalHash record = .ok hash := by
  simp only [canonicalKey, bind_ok] at h
  obtain ⟨firstValidTime, -, time, -, schema, -, id, hid, hash, hhash, h⟩ := h
  exact ⟨firstValidTime, time, schema, id, hash, (Except.ok.inj h).symm, hid, hhash⟩

theorem returns_parts (h : Returns (canonicalKey P record)) :
    Returns (semanticRecordId P record) ∧ Returns (logicalHash record) := by
  obtain ⟨key, hkey⟩ := h
  obtain ⟨_, _, _, id, hash, -, hid, hhash⟩ := canonicalKey_ok hkey
  exact ⟨⟨id, hid⟩, ⟨hash, hhash⟩⟩

variable {records ordered : List Record}

/-- The canonical order is that of the records with their keys. -/
theorem canonicalRecordOrder_ok :
    canonicalRecordOrder P records = .ok ordered ↔ ∃ keyed, (records.mapM fun record =>
          (canonicalKey P record).map fun key => (key, record)) = .ok keyed ∧
        ordered = (sortedBy Prod.fst keyed).map Prod.snd := by
  rw [canonicalRecordOrder, bind_ok]
  simp only [bind_ok]
  constructor
  · rintro ⟨_, -, keyed, hkeyed, h⟩
    exact ⟨keyed, hkeyed, (Except.ok.inj h).symm⟩
  · rintro ⟨keyed, hkeyed, rfl⟩
    have hchecks : Returns (forM records fun record => do
        let _ ← semanticRecordId P record
        let _ ← logicalHash record : Except Error Unit) := by
      rw [returns_forM]
      intro record hmem
      obtain ⟨p, -, hp⟩ := mem_of_mapM_left hkeyed hmem
      obtain ⟨key, hkey, -⟩ := map_ok.mp hp
      obtain ⟨⟨id, hid⟩, hash, hhash⟩ := returns_parts ⟨key, hkey⟩
      rw [hid, hhash]
      exact returns_ok _
    obtain ⟨u, hu⟩ := hchecks
    exact ⟨u, hu, keyed, hkeyed, rfl⟩

/-- The canonical order returns iff every record has a key. -/
theorem returns_canonicalRecordOrder : Returns (canonicalRecordOrder P records) ↔
      ∀ record ∈ records, Returns (canonicalKey P record) := by
  have hmap : (∀ record ∈ records, Returns (canonicalKey P record)) ↔
      Returns (records.mapM fun record =>
        (canonicalKey P record).map fun key => (key, record)) := by
    simp [returns_mapM]
  rw [hmap]
  constructor
  · rintro ⟨ordered, h⟩
    obtain ⟨keyed, hkeyed, -⟩ := canonicalRecordOrder_ok.mp h
    exact ⟨keyed, hkeyed⟩
  · rintro ⟨keyed, hkeyed⟩
    exact ⟨_, canonicalRecordOrder_ok.mpr ⟨keyed, hkeyed, rfl⟩⟩

/-- **The canonical order** is a rearrangement of the records that is sorted by their keys. -/
theorem canonicalRecordOrder_spec (h : canonicalRecordOrder P records = .ok ordered) :
    ordered.Perm records ∧ InCanonicalOrder P ordered := by
  obtain ⟨keyed, hkeyed, rfl⟩ := canonicalRecordOrder_ok.mp h
  have hsort := sortedBy_pairwise Prod.fst keyed
  have hperm := sortedBy_perm Prod.fst keyed
  have hkeys : ∀ p ∈ keyed, canonicalKey P p.2 = .ok p.1 := by
    intro p hp
    obtain ⟨record, -, hrec⟩ := mem_of_mapM_right hkeyed hp
    obtain ⟨key, hkey, rfl⟩ := map_ok.mp hrec
    exact hkey
  have hrecs : keyed.map Prod.snd = records := by
    rw [mapM_ok_iff] at hkeyed
    clear h hsort hperm hkeys
    induction hkeyed with
    | nil => rfl
    | cons hrec _ ih =>
      obtain ⟨key, -, rfl⟩ := map_ok.mp hrec
      simp [ih]
  refine ⟨hrecs ▸ hperm.map Prod.snd, (sortedBy Prod.fst keyed).map Prod.fst, ?_, ?_⟩
  · have hall : ∀ p ∈ sortedBy Prod.fst keyed, canonicalKey P p.2 = .ok p.1 := fun p hp =>
      hkeys p (mem_sortedBy.mp hp)
    generalize sortedBy Prod.fst keyed = sorted at hall
    rw [List.mapM_map, mapM_ok_iff]
    induction sorted with
    | nil => exact .nil
    | cons p sorted ih =>
      exact .cons (hall p (by simp)) (ih fun q hq => hall q (List.mem_cons_of_mem _ hq))
  · exact List.pairwise_map.mpr hsort

/-- The hashes of records in canonical order are the ends of their keys. -/
theorem mapM_logicalHash {keys : List (List PyStr)} (h : records.mapM (canonicalKey P) = .ok keys) :
    ∃ hashes, records.mapM logicalHash = .ok hashes ∧ hashes.map some = keys.map List.getLast? := by
  have hret : Returns (records.mapM logicalHash) := by
    rw [returns_mapM]
    intro record hmem
    obtain ⟨key, -, hkey⟩ := mem_of_mapM_left h hmem
    exact (returns_parts ⟨key, hkey⟩).2
  obtain ⟨hashes, hhashes⟩ := hret
  refine ⟨hashes, hhashes, ?_⟩
  rw [mapM_ok_iff] at h hhashes
  induction h generalizing hashes with
  | nil =>
    cases hhashes
    rfl
  | cons hkey _ ih =>
    cases hhashes with
    | cons hhash hrest =>
      obtain ⟨_, _, _, _, _, rfl, -, hhash'⟩ := canonicalKey_ok hkey
      cases hhash.symm.trans hhash'
      simp [ih _ hrest]

/-- **The hashes in canonical order are determined by the records.** -/
theorem hashes_eq_of_perm {ordered' : List Record} (hperm : ordered.Perm ordered')
    (h : InCanonicalOrder P ordered) (h' : InCanonicalOrder P ordered') :
    ordered.mapM logicalHash = ordered'.mapM logicalHash := by
  obtain ⟨keys, hkeys, hsort⟩ := h
  obtain ⟨keys', hkeys', hsort'⟩ := h'
  obtain rfl : keys = keys' :=
    eq_of_perm_of_pairwise (f := id) (fun _ _ _ _ hab => hab) (perm_of_mapM hperm hkeys hkeys')
      hsort hsort'
  obtain ⟨hashes, hhashes, hends⟩ := mapM_logicalHash hkeys
  obtain ⟨hashes', hhashes', hends'⟩ := mapM_logicalHash hkeys'
  rw [hhashes, hhashes',
    List.map_injective_iff.mpr (fun _ _ h => Option.some.inj h) (hends.trans hends'.symm)]

/-! ## Checkpoints of C2E v0.2

`checkpoint.py`: a checkpoint binds a manifest and the hash of a semantic prefix; a resume is verified
against both. -/

section

open Python

variable (P : Platform)

/-- `create_checkpoint`. -/
def createCheckpoint (manifest : Record) (completedPartitions : List PyStr) (logicalCursor : PyStr)
    (semanticPrefixRecords : List Record) : Except Error Record := do
  let manifestId ← requireText manifest "stream_manifest_id"
    (.checkpoint (py "STREAM_MANIFEST_ID_REQUIRED"))
  let prefixHash ← semanticPrefixHash P semanticPrefixRecords
  buildRecord P .checkpoint
    [(py "stream_manifest_id", .str manifestId),
      (py "completed_partitions", .ofStrs (sortedSet completedPartitions)),
      (py "logical_cursor", .str logicalCursor), (py "semantic_prefix_hash", .str prefixHash),
      (py "replaceable", .bool true), (py "authority", .str (py "OPERATIONAL_NON_SEMANTIC"))]

/-- `verify_resume`. -/
def verifyResume (checkpoint manifest : Record) (semanticPrefixRecords : List Record) :
    Except Error Record := do
  check (getOr checkpoint "stream_manifest_id" .none = getOr manifest "stream_manifest_id" .none)
    (.checkpoint (py "RESTART_BINDING_MISMATCH"))
  let observed ← semanticPrefixHash P semanticPrefixRecords
  check (getOr checkpoint "semantic_prefix_hash" .none = .str observed)
    (.checkpoint (py "RESTART_LOGICAL_DIVERGENCE"))
  return [(py "status", .str (py "PASS")),
    (py "checkpoint_id", getOr checkpoint "checkpoint_id" .none),
    (py "stream_manifest_id", getOr manifest "stream_manifest_id" .none),
    (py "semantic_prefix_hash", .str observed), (py "authority_effect", .str (py "NONE"))]

variable {P}

/-- **What a resume is accepted for**: the manifest of the checkpoint and the hash of the prefix. -/
theorem returns_verifyResume {checkpoint manifest : Record} :
    Returns (verifyResume P checkpoint manifest records) ↔
      getOr checkpoint "stream_manifest_id" .none = getOr manifest "stream_manifest_id" .none ∧
        ∃ observed, semanticPrefixHash P records = .ok observed ∧
          getOr checkpoint "semantic_prefix_hash" .none = .str observed := by
  simp only [Returns, verifyResume, bind_ok, check_ok]
  constructor
  · rintro ⟨_, _, hbind, observed, hobs, _, hhash, -⟩
    exact ⟨hbind, observed, hobs, hhash⟩
  · rintro ⟨hbind, observed, hobs, hhash⟩
    exact ⟨_, (), hbind, observed, hobs, (), hhash, rfl⟩

/-- A field of a checkpoint that is no list. -/
theorem getOr_of_built {kind : RecordKind} {payload record : Record}
    (h : buildRecord P kind payload = .ok record) {field : String}
    (hfield : py field ∉ kind.reserved) (hlist : py field ∉ sortedListFields.map py) :
    getOr record field .none = getOr payload field .none := by
  obtain ⟨fields, _, _, hf, -⟩ := (buildRecord_ok P).mp h
  rw [getOr, get?_field h hf hfield, get?_canonicalFields_of_notMem P hf hlist, getOr]

/-- The prefix hash does not depend on the order in which the records are given. -/
theorem semanticPrefixHash_perm {records' : List Record} (hperm : records.Perm records')
    {hash : PyStr} (h : semanticPrefixHash P records = .ok hash) :
    semanticPrefixHash P records' = .ok hash := by
  rw [semanticPrefixHash, bind_ok] at h ⊢
  obtain ⟨ordered, hord, h⟩ := h
  have hret : Returns (canonicalRecordOrder P records') := by
    rw [returns_canonicalRecordOrder]
    intro record hmem
    exact returns_canonicalRecordOrder.mp ⟨ordered, hord⟩ record (hperm.mem_iff.mpr hmem)
  obtain ⟨ordered', hord'⟩ := hret
  obtain ⟨hp, hsort⟩ := canonicalRecordOrder_spec hord
  obtain ⟨hp', hsort'⟩ := canonicalRecordOrder_spec hord'
  refine ⟨ordered', hord', ?_⟩
  rwa [← hashes_eq_of_perm (hp.trans (hperm.trans hp'.symm)) hsort hsort']

end

end OvcReplay.C2e
