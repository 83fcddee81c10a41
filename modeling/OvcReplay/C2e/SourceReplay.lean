import OvcReplay.C2e.Persistence

/-! # Emission of a replay of C2E v0.2

`source_replay.py`: `write_run` writes what a replay produced, seals it with a stream manifest and a
final checkpoint, and returns a receipt. A file is represented by its contents. -/

namespace OvcReplay.C2e

open Python

/-- `ReplayResult`. -/
structure ReplayResult where
  frameIndex : List Record
  evaluations : List Record
  records : List Record
  disagreements : List Record
  blockedCandidates : List Record
  counters : Dict PyStr Int

namespace SourceReplay

variable (P : Platform)

/-- A file that was written. -/
structure WrittenFile where
  fileName : PyStr
  recordCount : Nat
  contents : PyStr

/-- What the receipt says of a file. -/
def WrittenFile.entry (file : WrittenFile) : PyVal :=
  .ofRecord [(py "file_name", .str file.fileName), (py "record_count", .int file.recordCount),
    (py "size_bytes", .int (Sha256.utf8Length file.contents)),
    (py "sha256", .str (P.sha256 file.contents).text)]

/-- `write_jsonl`. -/
def writeJsonl (fileName : String) (rows : List Record) : Except Error WrittenFile := do
  let lines ← rows.mapM fun row => canonicalBytes P (.ofRecord row)
  return ⟨py fileName, rows.length, lines.flatMap fun line => line ++ py "\n"⟩

/-- One record, written as canonical bytes and a line break. -/
def writeRecord (fileName : String) (record : Record) : Except Error WrittenFile := do
  let line ← canonicalBytes P (.ofRecord record)
  return ⟨py fileName, 1, line ++ py "\n"⟩

/-- The fields a record id is looked for in, in this order. -/
def streamIdFields : List String :=
  ["episode_id", "snapshot_id", "phase_segment_id", "boundary_event_id", "membership_delta_id",
    "lineage_edge_id"]

/-- What the loop over the records collects. -/
structure Tally where
  orderedIds : List PyVal
  orderedHashes : List PyVal
  /-- The number of records of each schema. -/
  counts : Dict PyVal Int

/-- The loop body. -/
def tallyRecord (tally : Tally) (record : Record) : Except Error Tally := do
  let recordId := (streamIdFields.findSome? fun field => record.get? (py field)).getD .none
  check (recordId ≠ .none) (.sourceReplay (py "STREAM_RECORD_ID_MISSING"))
  let hash ← lookup record (py "logical_hash")
  let schema ← lookup record (py "schema")
  check (schema.hashable = true) (.python .typeError)
  return ⟨tally.orderedIds ++ [recordId], tally.orderedHashes ++ [hash],
    tally.counts.set schema ((tally.counts.get? schema).getD 0 + 1)⟩

/-- `sorted(counts)`. -/
def sortedSchemas (counts : Dict PyVal Int) : Except Error (List PyVal) :=
  let texts := counts.keys.filterMap fun | .str s => some s | _ => none
  if texts.length = counts.length then .ok ((sortedBy (fun s => s) texts).map .str)
  else (P.sortValues counts.keys).mapError .python

/-- The dictionary key that is this value. -/
def keyOf : PyVal → Except Error PyKey
  | .str s => .ok (.str s)
  | .none => .ok .none
  | .bool b => .ok (.bool b)
  | .int z => .ok (.int z)
  | v => (strOf P v).map .other

/-- The payload of the stream manifest. -/
def manifestPayload (sourceBinding : Record) (boundaryPackId : PyStr) (schemaIds : List PyVal)
    (codeHashes : List PyStr) (tally : Tally) (counts : List (PyKey × PyVal)) (blocked : Nat) :
    Record :=
  [(py "source_binding", .ofRecord sourceBinding), (py "boundary_pack_id", .str boundaryPackId),
    (py "schema_ids", .list schemaIds),
    (py "code_hashes", .ofStrs (sortedBy (fun s => s) codeHashes)),
    (py "ordered_record_ids", .list tally.orderedIds),
    (py "ordered_record_hashes", .list tally.orderedHashes), (py "counts", .dict counts),
    (py "missingness", .ofRecord [(py "not_evaluable_candidates", .int blocked)]),
    (py "authority", .str (py "INACTIVE_NONCANONICAL_SHADOW"))]

/-- The payload of the final checkpoint. -/
def checkpointPayload (manifestId : PyVal) (prefixHash : PyStr) : Record :=
  [(py "stream_manifest_id", manifestId),
    (py "completed_partitions", .ofStrs [py "ASK", py "BID"]),
    (py "logical_cursor", .str (py "TARGET_END:2026-07-01T00:00:00Z")),
    (py "semantic_prefix_hash", .str prefixHash), (py "replaceable", .bool true),
    (py "authority", .str (py "OPERATIONAL_NON_SEMANTIC"))]

/-- What has been emitted once the checkpoint is written. -/
structure Emitted where
  manifest : Record
  checkpoint : Record
  files : List (PyStr × WrittenFile)

/-- `write_run` as far as the checkpoint. -/
def emit (result : ReplayResult) (sourceBinding : Record) (boundaryPackId : PyStr)
    (codeHashes : List PyStr) : Except Error Emitted := do
  let frameIndex ← writeJsonl P "c2e-input-frame-index-v0_3.jsonl" result.frameIndex
  let evaluations ← writeJsonl P "c2e-boundary-evaluations-v2.jsonl" result.evaluations
  let stream ← writeJsonl P "c2e-event-stream-v0_2.jsonl" result.records
  let disagreements ← writeJsonl P "c2e-boundary-disagreement-ledger.jsonl" result.disagreements
  let blocked ← writeJsonl P "c2e-not-evaluable-candidates.jsonl" result.blockedCandidates
  let tally ← result.records.foldlM tallyRecord ⟨[], [], []⟩
  let schemaIds ← sortedSchemas P tally.counts
  let counts ← tally.counts.mapM fun p => (keyOf P p.1).map fun k => (k, .int p.2)
  let manifest ← buildRecord P .streamManifest
    (manifestPayload sourceBinding boundaryPackId schemaIds codeHashes tally counts
      result.blockedCandidates.length)
  let manifestFile ← writeRecord P "c2e-stream-manifest-v0_2.json" manifest
  let manifestId ← lookup manifest (py "stream_manifest_id")
  let prefixHash ← sha256Hex P (.list tally.orderedHashes)
  let checkpoint ← buildRecord P .checkpoint (checkpointPayload manifestId prefixHash)
  let checkpointFile ← writeRecord P "c2e-checkpoint-final-v0_2.json" checkpoint
  return ⟨manifest, checkpoint,
    [(py "frame_index", frameIndex), (py "evaluations", evaluations), (py "stream", stream),
      (py "disagreements", disagreements), (py "blocked_candidates", blocked),
      (py "stream_manifest", manifestFile), (py "checkpoint", checkpointFile)]⟩

/-- The receipt of a run. -/
def receipt (result : ReplayResult) (sourceBinding : Record) (boundaryPackId : PyStr)
    (emitted : Emitted) : Except Error Record := do
  let births ← match result.counters.get? (py "birth") with
    | some n => .ok n
    | none => .error (.python .keyError)
  let logicalFiles := (sortedBy Prod.fst emitted.files).map fun p =>
    (p.1, .str (P.sha256 p.2.contents).text)
  let logicalOutput ← sha256Hex P (.ofRecord logicalFiles)
  return [(py "schema", .str (py "c2e_wp6_run_output_manifest/v0_1")),
    (py "programme_id", .str (py "OVC-C2E-CAUSAL-EPISODE-CONFORMANCE-v0.2")),
    (py "packet_id", .str (py "C2E2-WP6")), (py "boundary_pack_id", .str boundaryPackId),
    (py "source_binding", .ofRecord sourceBinding),
    (py "files", .ofRecord (emitted.files.map fun p => (p.1, p.2.entry P))),
    (py "counters", .ofRecord (result.counters.map fun p => (p.1, .int p.2))),
    (py "frame_count", .int result.frameIndex.length),
    (py "stream_record_count", .int result.records.length), (py "episode_count", .int births),
    (py "logical_output_sha256", .str logicalOutput),
    (py "authority", .str (py "INACTIVE_NONCANONICAL_SHADOW")),
    (py "provider_intake", .str (py "NONE")), (py "sampling", .str (py "NONE")),
    (py "validation_consumption", .str (py "NONE"))]

/-- `write_run`. -/
def writeRun (result : ReplayResult) (sourceBinding : Record) (boundaryPackId : PyStr)
    (codeHashes : List PyStr) : Except Error (Emitted × Record) := do
  let emitted ← emit P result sourceBinding boundaryPackId codeHashes
  let receipt ← receipt P result sourceBinding boundaryPackId emitted
  let _ ← writeRecord P "c2e-wp6-run-output-manifest.json" receipt
  return (emitted, receipt)

/-! ## What the checkpoint binds -/

variable {P} {result : ReplayResult} {sourceBinding : Record} {boundaryPackId : PyStr}
  {codeHashes : List PyStr} {emitted : Emitted}

/-- The hashes are collected in the order of emission. -/
theorem orderedHashes_of_tally {records : List Record} {tally tally' : Tally}
    (h : records.foldlM tallyRecord tally = .ok tally') :
    ∃ hashes, records.mapM (fun record => lookup record (py "logical_hash")) = .ok hashes ∧
      tally'.orderedHashes = tally.orderedHashes ++ hashes := by
  induction records generalizing tally with
  | nil =>
    cases h
    exact ⟨[], rfl, by simp⟩
  | cons record records ih =>
    rw [List.foldlM_cons, bind_ok] at h
    obtain ⟨next, hnext, h⟩ := h
    obtain ⟨hashes, hhashes, heq⟩ := ih h
    obtain ⟨hash, hhash, hnext⟩ : ∃ hash, lookup record (py "logical_hash") = .ok hash ∧
        next.orderedHashes = tally.orderedHashes ++ [hash] := by
      simp only [tallyRecord, bind_ok] at hnext
      obtain ⟨_, -, hash, hhash, schema, -, _, -, hnext⟩ := hnext
      exact ⟨hash, hhash, Except.ok.inj hnext ▸ rfl⟩
    refine ⟨hash :: hashes, ?_, by rw [heq, hnext]; simp⟩
    rw [List.mapM_cons, hhash]
    simp only [bind, Except.bind, hhashes]
    rfl

/-- **What the checkpoint binds**: the manifest, and the hash of the hashes as they were emitted. -/
theorem emit_spec (h : emit P result sourceBinding boundaryPackId codeHashes = .ok emitted) :
    getOr emitted.checkpoint "stream_manifest_id" .none =
        getOr emitted.manifest "stream_manifest_id" .none ∧
      ∃ hashes prefixHash,
        result.records.mapM (fun record => lookup record (py "logical_hash")) = .ok hashes ∧
        sha256Hex P (.list hashes) = .ok prefixHash ∧
        getOr emitted.checkpoint "semantic_prefix_hash" .none = .str prefixHash := by
  simp only [emit, bind_ok] at h
  obtain ⟨_, -, _, -, _, -, _, -, _, -, tally, htally, _, -, _, -, manifest, hmanif, _, -,
    manifestId, hid, prefixHash, hhash, checkpoint, hckpt, _, -, h⟩ := h
  cases h
  obtain ⟨hashes, hhashes, heq⟩ := orderedHashes_of_tally htally
  rw [List.nil_append] at heq
  have hfield : ∀ field : String, py field ∉ RecordKind.checkpoint.reserved →
      py field ∉ sortedListFields.map py → getOr checkpoint field .none =
        getOr (checkpointPayload manifestId prefixHash) field .none := fun field =>
    getOr_of_built hckpt
  refine ⟨?_, hashes, prefixHash, hhashes, heq ▸ hhash, ?_⟩
  · rw [hfield _ (by simp [RecordKind.reserved, RecordKind.spec]) (by simp [sortedListFields])]
    simp [checkpointPayload, getOr, lookup_ok.mp hid]
  · rw [hfield _ (by simp [RecordKind.reserved, RecordKind.spec]) (by simp [sortedListFields])]
    simp [checkpointPayload, getOr]

/-! ## When a resume is accepted -/

/-- The texts whose hashes a resume compares: the lists of the records' hashes, in any order. -/
def PrefixText (P : Platform) (records : List Record) (text : PyStr) : Prop :=
  ∃ (rows : List Record) (hashes : List PyStr), rows.Perm records ∧
    rows.mapM logicalHash = .ok hashes ∧ canonicalBytes P (.ofStrs hashes) = .ok text

/-- **The emission is in canonical order as far as hashes show**: the records can be put into
canonical order without changing the sequence of their logical hashes. -/
def Resumable (P : Platform) (records : List Record) : Prop :=
  ∃ ordered : List Record, ordered.Perm records ∧ InCanonicalOrder P ordered ∧
    ordered.mapM logicalHash = records.mapM logicalHash

/-- Records with logical hashes have the same ones as values and as texts. -/
theorem mapM_lookup_of_mapM_logicalHash {records : List Record} {hashes : List PyStr}
    (h : records.mapM logicalHash = .ok hashes) :
    records.mapM (fun record => lookup record (py "logical_hash")) =
      .ok (hashes.map .str) := by
  rw [mapM_ok_iff] at h ⊢
  induction h with
  | nil => exact .nil
  | cons hhash _ ih => exact .cons (lookup_ok.mpr (requireText_ok.mp hhash)) ih

/-- A boundary event as a run may emit it. -/
def sampleEvent (id firstValidTime hash : String) : Record :=
  [(py "schema", .str (py "c2e_boundary_event/v0_2")), (py "boundary_event_id", .str (py id)),
    (py "first_valid_time", .str (py firstValidTime)), (py "logical_hash", .str (py hash))]

/-- A run that emitted these records. -/
def sampleResult (records : List Record) : ReplayResult where
  frameIndex := []
  evaluations := []
  records := records
  disagreements := []
  blockedCandidates := []
  counters := [(py "birth", 0)]

end SourceReplay

end OvcReplay.C2e
