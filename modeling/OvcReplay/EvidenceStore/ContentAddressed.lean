import OvcReplay.Json.Values
import OvcReplay.Python.Raising

/-! # The content-addressed artifact store

A unit's raw output is cut into chunks; every chunk is compressed and kept under the digest of its raw
bytes, and a manifest under the digest of the unit names them. What was stored is verified by reading
it back before a receipt is given. -/

namespace OvcReplay.EvidenceStore

open Python Raising

/-- Bytes. -/
abbrev Bytes : Type := List UInt8

/-- What the store takes from the standard library and does not define itself. -/
structure Host where
  /-- `sha256(raw).hexdigest()`. -/
  sha256 : Bytes → HexDigest
  /-- `gzip.compress(raw, compresslevel=level, mtime=0)`. -/
  compress : (level : Nat) → Bytes → Bytes
  /-- `gzip.decompress(raw)`, without a value where it raises. -/
  decompress : Bytes → Option Bytes
  /-- `int(v)` of a value that is no integer. -/
  intOf : PyVal → Except PyError Int
  /-- `str(exc)` of what `json.loads` raises for a text. -/
  jsonErrorText : PyStr → PyStr

/-- What a call of the store raises. -/
inductive StoreError where
  /-- `EvidenceStoreError(message)`. -/
  | evidence (message : PyStr)
  | raised (e : PyError)
  /-- `gzip.decompress` refuses the bytes. -/
  | gzip
  deriving DecidableEq, Repr

/-- A text that is a literal of the source. -/
abbrev message (s : String) : StoreError := .evidence (py s)

/-- What the constructor of a store was given and accepted. -/
structure Config where
  namespaceText : PyStr
  maxExternalBytes : Nat
  chunkBytes : Nat
  compressionLevel : Nat
  maxExternalBytes_pos : 0 < maxExternalBytes
  chunkBytes_pos : 0 < chunkBytes
  compressionLevel_le : compressionLevel ≤ 9

/-- **A store**: the files of its namespace and `_size_cache`. -/
structure Store where
  /-- The texts of the manifests, by the digests of their units. -/
  manifests : Dict PyStr PyStr
  /-- The compressed chunks, by the digests of their raw bytes. -/
  cas : Dict PyStr Bytes
  sizeCache : Option Nat
  deriving DecidableEq, Repr

/-- A store without files. -/
def Store.empty : Store := ⟨[], [], none⟩

/-- `ArtifactReceipt`. -/
structure ArtifactReceipt where
  namespaceText : PyStr
  unitId : PyStr
  manifestSha256 : PyStr
  logicalOutputSha256 : PyStr
  rawOutputSha256 : PyStr
  rawOutputBytes : Nat
  deriving DecidableEq, Repr

/-- The arguments of a commit. -/
structure Commit where
  unitId : PyStr
  rawOutput : Bytes
  logicalOutputSha256 : PyStr
  context : List (PyKey × PyVal)
  manifestSchema : PyStr
  deriving DecidableEq, Repr

/-! ## Chunks -/

/-- The slices `raw[offset : offset + size]` for the offsets of `range(0, len(raw), size)`. -/
def chunksOf (size : Nat) (raw : Bytes) : List Bytes :=
  (List.range ((raw.length + size - 1) / size)).map fun i => (raw.drop (i * size)).take size

theorem flatten_slices (size n : Nat) (raw : Bytes) :
    ((List.range n).map fun i => (raw.drop (i * size)).take size).flatten = raw.take (n * size) := by
  induction n with
  | zero => simp
  | succ n ih =>
    rw [List.range_succ, List.map_append, List.flatten_append, ih, Nat.succ_mul, List.take_add]
    simp

/-- **The chunks are the whole output.** -/
theorem flatten_chunksOf {size : Nat} (hsize : 0 < size) (raw : Bytes) :
    (chunksOf size raw).flatten = raw := by
  rw [chunksOf, flatten_slices]
  refine List.take_of_length_le ?_
  -- the last offset plus the size of a chunk is not before the end
  have hdiv := Nat.div_add_mod (raw.length + size - 1) size
  have hmod := Nat.mod_lt (raw.length + size - 1) hsize
  rw [Nat.mul_comm] at hdiv
  omega

section

variable (P : Platform) (H : Host) (floatOf : Json.FloatOfText) (C : Config)

/-- `_unit_name`, without its suffix. -/
def unitName (unitId : PyStr) : Except StoreError PyStr := do
  let unit := strip unitId
  check (unit ≠ []) (message "unit_id is required")
  let encoded ← (encodeUtf8 unit).mapError .raised
  return (P.sha256 encoded).text

/-- The record of a chunk in the manifest. -/
def chunkRecord (index : Nat) (raw : Bytes) : Record :=
  let compressed := H.compress C.compressionLevel raw
  [(py "index", .int index), (py "raw_sha256", .str (H.sha256 raw).text),
    (py "raw_bytes", .int raw.length), (py "compressed_sha256", .str (H.sha256 compressed).text),
    (py "compressed_bytes", .int compressed.length)]

/-- The `storage` of a manifest. -/
def storageRecord (chunks : List Bytes) : Record :=
  [(py "layout", .str (py "CONTENT_ADDRESSED_CHUNKED_COMPRESSED")),
    (py "compression", .str (py "gzip")), (py "compression_level", .int C.compressionLevel),
    (py "gzip_mtime", .int 0), (py "chunk_bytes", .int C.chunkBytes),
    (py "chunks", .list (chunks.zipIdx.map fun p => .ofRecord (chunkRecord H C p.2 p.1)))]

variable (call : Commit)

/-- The manifest of a commit whose output was cut into `chunks`. -/
def manifestRecord (chunks : List Bytes) (rawSha : PyStr) (rawBytes : Nat) : Record :=
  [(py "schema", .str call.manifestSchema), (py "namespace", .str C.namespaceText),
    (py "unit_id", .str (strip call.unitId)),
    (py "logical_output_sha256", .str call.logicalOutputSha256),
    (py "raw_output_sha256", .str rawSha), (py "raw_output_bytes", .int rawBytes),
    (py "context", .dict call.context), (py "storage", .ofRecord (storageRecord H C chunks))]

/-- `canonical_json_bytes(manifest) + b"\n"`, by the text it encodes. -/
def canonicalText (manifest : Record) : Except StoreError PyStr := do
  let tree ← (Json.dumps P (.ofRecord manifest)).mapError .raised
  let encoded ← (encodeUtf8 tree.render).mapError .raised
  return encoded ++ py "\n"

/-- The manifest that `commit_bytes` makes. -/
def bytesManifest : Record :=
  manifestRecord H C call (chunksOf C.chunkBytes call.rawOutput) (H.sha256 call.rawOutput).text
    call.rawOutput.length

/-- The text of the manifest that `commit_bytes` writes. -/
def manifestText : Except StoreError PyStr :=
  canonicalText P (bytesManifest H C call)

/-- The receipt of a commit whose manifest has the text `text`. -/
def receiptOf (text : PyStr) : ArtifactReceipt where
  namespaceText := C.namespaceText
  unitId := strip call.unitId
  manifestSha256 := (P.sha256 text).text
  logicalOutputSha256 := call.logicalOutputSha256
  rawOutputSha256 := (H.sha256 call.rawOutput).text
  rawOutputBytes := call.rawOutput.length

variable (cas : Dict PyStr Bytes)

/-- A chunk against the file at its path: the file that is to be written, when there is none yet. -/
def checkChunk (raw : Bytes) : Except StoreError (Option (PyStr × Bytes)) :=
  let digest := (H.sha256 raw).text
  let compressed := H.compress C.compressionLevel raw
  match cas.get? digest with
  | none => .ok (some (digest, compressed))
  | some existing =>
    if (H.sha256 existing).text ≠ (H.sha256 compressed).text then
      .error (.evidence (py "ARTIFACT_CORRUPT CAS collision:" ++ digest))
    else
      match H.decompress existing with
      | none => .error .gzip
      | some out =>
        if out ≠ raw then .error (.evidence (py "ARTIFACT_CORRUPT CAS collision:" ++ digest))
        else .ok none

/-- The files of the chunks that are not stored yet. -/
def pendingFiles (chunks : List Bytes) :
    Except StoreError (List (PyStr × Bytes)) := do
  let checked ← chunks.mapM (checkChunk H C cas)
  return checked.filterMap id

/-- The files that `commit_bytes` finds missing. -/
def pendingOf (raw : Bytes) : Except StoreError (List (PyStr × Bytes)) :=
  pendingFiles H C cas (chunksOf C.chunkBytes raw)

/-! ## Capacity -/

/-- The bytes of the files under `cas` and `manifests`. -/
def Store.fileBytes (s : Store) : Nat :=
  (s.manifests.map fun p => Sha256.utf8Length p.2).sum + (s.cas.map fun p => p.2.length).sum

/-- `total_bytes`: with nothing cached every file of the namespace is counted, the `staged` bytes that
lie beside the store among them. -/
def totalBytes (staged : Nat) : Raising StoreError Store Nat := do
  let s ← get
  let total := s.sizeCache.getD (s.fileBytes + staged)
  set { s with sizeCache := some total }
  return total

/-- `_reserve`. -/
def reserve (staged addedBytes : Nat) : Raising StoreError Store Unit := do
  let total ← totalBytes staged
  let projected := total + addedBytes
  require (projected ≤ C.maxExternalBytes)
    (.evidence (py "CAPACITY_EXTERNAL_BYTES_EXCEEDED namespace=" ++ C.namespaceText ++
      py " projected=" ++ natText projected ++ py " limit=" ++ natText C.maxExternalBytes))

/-- `_record_written`; `_reserve` came before it, so the total is cached. -/
def recordWritten (byteCount : Nat) : Raising StoreError Store Unit := do
  let current ← totalBytes 0
  modify fun s => { s with sizeCache := some (current + byteCount) }

/-- Write the file of a chunk. -/
def writeChunk (file : PyStr × Bytes) : Raising StoreError Store Unit := do
  modify fun s => { s with cas := s.cas.set file.1 file.2 }
  recordWritten file.2.length

/-- Write a manifest. -/
def writeManifest (name text : PyStr) : Raising StoreError Store Unit := do
  modify fun s => { s with manifests := s.manifests.set name text }
  recordWritten (Sha256.utf8Length text)

/-! ## Reading -/

variable (v : PyVal)

/-- `int(v)`. -/
def intValue : Except StoreError Int :=
  match v with
  | .int z => .ok z
  | .bool b => .ok (if b then 1 else 0)
  | v => (H.intOf v).mapError .raised

variable (k : String)

/-- `v.get(k)`. -/
def getField : Except StoreError PyVal :=
  if v.isMapping then .ok ((v.get? (py k)).getD .none) else .error (.raised .attributeError)

/-- `v[k]`. -/
def subscript : Except StoreError PyVal :=
  (v.subscript (py k)).mapError .raised

/-- `str(v[k])`. -/
def textField : Except StoreError PyStr := do
  let w ← subscript v k
  (PyVal.strOf P w).mapError .raised

/-- `int(v[k])`. -/
def intField : Except StoreError Int := do
  let w ← subscript v k
  intValue H w

/-- A key of a dictionary that `json.loads` built, as a value. -/
def keyValue : PyKey → PyVal
  | .str s => .str s
  | _ => .none

/-- The values a `for` loop takes from a value that `json.loads` built. -/
def elements : PyVal → Except StoreError (List PyVal)
  | .list xs => .ok xs
  | .dict items => .ok (items.map fun p => keyValue p.1)
  | .str s => .ok (s.map fun c => .str [c])
  | _ => .error (.raised .typeError)

/-- `json.loads` of a manifest; whatever it raises is reported as a corrupt artifact. -/
def readManifest (unitId text : PyStr) : Except StoreError PyVal :=
  match Json.parse text with
  | .ok tree => .ok (tree.value floatOf)
  | .error _ =>
    .error (.evidence (py "ARTIFACT_CORRUPT:" ++ unitId ++ py ":" ++ H.jsonErrorText text))

variable (unitId : PyStr)

/-- `_load_manifest`. -/
def loadManifest (s : Store) : Except StoreError (PyVal × PyStr) := do
  let name ← unitName P unitId
  match s.manifests.get? name with
  | none => .error (.evidence (py "ARTIFACT_MISSING:" ++ unitId))
  | some text =>
    let manifest ← readManifest H floatOf unitId text
    let namespaceText ← getField manifest "namespace"
    let unit ← getField manifest "unit_id"
    check (namespaceText = .str C.namespaceText ∧ unit = .str unitId)
      (.evidence (py "ARTIFACT_BINDING_MISMATCH:" ++ unitId))
    return (manifest, text)

/-- The raw bytes of a chunk of a manifest. -/
def loadChunk (s : Store) (chunk : PyVal) : Except StoreError Bytes := do
  let digest ← textField P chunk "raw_sha256"
  match s.cas.get? digest with
  | none => .error (.evidence (py "ARTIFACT_MISSING:" ++ digest))
  | some compressed =>
    let compressedSha ← textField P chunk "compressed_sha256"
    check ((H.sha256 compressed).text = compressedSha)
      (.evidence (py "ARTIFACT_CORRUPT:compressed:" ++ unitId))
    match H.decompress compressed with
    | none => .error .gzip
    | some raw =>
      let rawBytes ← intField H chunk "raw_bytes"
      check ((raw.length : Int) = rawBytes ∧ (H.sha256 raw).text = digest)
        (.evidence (py "ARTIFACT_CORRUPT:raw:" ++ unitId))
      return raw

/-- The context of a manifest against the expected one. -/
def checkContext (expected : Option (List (PyKey × PyVal))) (manifest : PyVal) :
    Except StoreError Unit :=
  match expected with
  | none => .ok ()
  | some context => do
    let stored ← getField manifest "context"
    check (stored.pyEq (.dict context) = true)
      (.evidence (py "ARTIFACT_CONTEXT_MISMATCH:" ++ unitId))

/-- The chunks of a manifest. -/
def manifestChunks (manifest : PyVal) : Except StoreError (List PyVal) := do
  let storage ← subscript manifest "storage"
  let chunks ← subscript storage "chunks"
  elements chunks

/-- **`load_bytes`**. -/
def loadBytes (expected : Option (List (PyKey × PyVal))) (s : Store) :
    Except StoreError Bytes := do
  let (manifest, _) ← loadManifest P H floatOf C unitId s
  checkContext unitId expected manifest
  let chunks ← manifestChunks manifest
  let parts ← chunks.mapM (loadChunk P H unitId s)
  let output := parts.flatten
  let rawOutputBytes ← intField H manifest "raw_output_bytes"
  check ((output.length : Int) = rawOutputBytes) (.evidence (py "ARTIFACT_CORRUPT:length:" ++ unitId))
  let rawOutputSha ← textField P manifest "raw_output_sha256"
  check ((H.sha256 output).text = rawOutputSha) (.evidence (py "ARTIFACT_CORRUPT:whole:" ++ unitId))
  return output

/-- **`verify_receipt`**. -/
def verifyReceipt (receipt : ArtifactReceipt) (expected : Option (List (PyKey × PyVal))) (s : Store) :
    Except StoreError Unit := do
  check (receipt.namespaceText = C.namespaceText)
    (.evidence (py "ARTIFACT_BINDING_MISMATCH:" ++ receipt.unitId))
  let (manifest, text) ← loadManifest P H floatOf C receipt.unitId s
  check ((P.sha256 text).text = receipt.manifestSha256)
    (.evidence (py "ARTIFACT_CORRUPT:manifest:" ++ receipt.unitId))
  let output ← loadBytes P H floatOf C receipt.unitId expected s
  check ((H.sha256 output).text = receipt.rawOutputSha256)
    (.evidence (py "ARTIFACT_CORRUPT:receipt:" ++ receipt.unitId))
  let logical ← getField manifest "logical_output_sha256"
  check (logical = .str receipt.logicalOutputSha256)
    (.evidence (py "ARTIFACT_CORRUPT:logical:" ++ receipt.unitId))

/-! ## Committing -/

/-- What a commit works out before it writes: the name of the unit's manifest, the files of the
chunks that are not stored yet and the text of the manifest. -/
structure Plan where
  name : PyStr
  pending : List (PyStr × Bytes)
  text : PyStr

/-- The bytes a commit asks for. -/
def Plan.bytes (plan : Plan) : Nat :=
  (plan.pending.map fun file => file.2.length).sum + Sha256.utf8Length plan.text

/-- Everything before the first write. -/
def planOf (s : Store) : Except StoreError Plan := do
  let name ← unitName P (strip call.unitId)
  let pending ← pendingOf H C s.cas call.rawOutput
  let text ← manifestText P H C call
  return ⟨name, pending, text⟩

/-- A unit whose manifest exists keeps it; the manifest of another is written behind its chunks. -/
def store (plan : Plan) : Raising StoreError Store Unit := do
  let s ← get
  match s.manifests.get? plan.name with
  | some existing =>
    require (existing = plan.text)
      (.evidence (py "ARTIFACT_HISTORY_REWRITE:" ++ strip call.unitId))
  | none =>
    reserve C 0 plan.bytes
    plan.pending.forM writeChunk
    writeManifest plan.name plan.text

/-- **`commit_bytes`**. -/
def commitBytes : Raising StoreError Store ArtifactReceipt := do
  let s ← get
  let plan ← lift (planOf P H C call s)
  store C call plan
  let receipt := receiptOf P H C call plan.text
  let s ← get
  lift (verifyReceipt P H floatOf C receipt (some call.context) s)
  return receipt

end

end OvcReplay.EvidenceStore
