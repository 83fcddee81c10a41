import OvcReplay.EvidenceStore.Durability

/-! # Committing from a file

`commit_file` reads the output one chunk at a time, stages what is not stored yet beside the store and
moves it to its place. It writes the files that `commit_bytes` writes. The two differ in how they add
up what they write, and in what lies in the namespace while they add it up. -/

namespace OvcReplay.EvidenceStore

open List Python Raising

/-- `handle.read(size)` until nothing is left; `fuel` is as long as the file. -/
def readChunks (size : Nat) : (fuel : Nat) → Bytes → List Bytes
  | 0, _ => []
  | fuel + 1, raw =>
    if raw = [] then [] else raw.take size :: readChunks size fuel (raw.drop size)

section

variable (P : Platform) (H : Host) (floatOf : Json.FloatOfText) (C : Config)

/-- The chunks that are read from the file. -/
def fileChunks (raw : Bytes) : List Bytes := readChunks C.chunkBytes raw.length raw

variable (call : Commit)

/-- The manifest that `commit_file` makes: the hash is updated with every chunk. -/
def fileManifest : Record :=
  let chunks := fileChunks C call.rawOutput
  manifestRecord H C call chunks (H.sha256 chunks.flatten).text (chunks.map List.length).sum

/-- Everything before `commit_file` reserves bytes. -/
def filePlanOf (s : Store) : Except StoreError Plan := do
  let name ← unitName P (strip call.unitId)
  let pending ← pendingFiles H C s.cas (fileChunks C call.rawOutput)
  let text ← canonicalText P (fileManifest H C call)
  return ⟨name, pending, text⟩

/-- The bytes that are staged: every pending file has one of its own. -/
def Plan.staged (plan : Plan) : Nat := (plan.pending.map fun file => file.2.length).sum

/-- Move a staged file to its place, unless another one is there by now. -/
def moveChunk (file : PyStr × Bytes) : Raising StoreError Store Unit := do
  let s ← get
  if (s.cas.get? file.1).isSome then pure () else writeChunk file

/-- What `commit_file` does once its files are staged. -/
def storeFile (plan : Plan) : Raising StoreError Store Unit := do
  let s ← get
  match s.manifests.get? plan.name with
  | some existing =>
    require (existing = plan.text)
      (.evidence (py "ARTIFACT_HISTORY_REWRITE:" ++ strip call.unitId))
  | none =>
    reserve C plan.staged plan.bytes
    plan.pending.forM moveChunk
    writeManifest plan.name plan.text

/-- The receipt that `commit_file` gives. -/
def fileReceiptOf (text : PyStr) : ArtifactReceipt where
  namespaceText := C.namespaceText
  unitId := strip call.unitId
  manifestSha256 := (P.sha256 text).text
  logicalOutputSha256 := call.logicalOutputSha256
  rawOutputSha256 := (H.sha256 (fileChunks C call.rawOutput).flatten).text
  rawOutputBytes := ((fileChunks C call.rawOutput).map List.length).sum

/-- **`verify_receipt_streaming`**. -/
def verifyReceiptStreaming (receipt : ArtifactReceipt) (expected : Option (List (PyKey × PyVal)))
    (s : Store) : Except StoreError Unit := do
  check (receipt.namespaceText = C.namespaceText)
    (.evidence (py "ARTIFACT_BINDING_MISMATCH:" ++ receipt.unitId))
  let (manifest, text) ← loadManifest P H floatOf C receipt.unitId s
  check ((P.sha256 text).text = receipt.manifestSha256)
    (.evidence (py "ARTIFACT_CORRUPT:manifest:" ++ receipt.unitId))
  checkContext receipt.unitId expected manifest
  let logical ← getField manifest "logical_output_sha256"
  check (logical = .str receipt.logicalOutputSha256)
    (.evidence (py "ARTIFACT_CORRUPT:logical:" ++ receipt.unitId))
  let chunks ← manifestChunks manifest
  let parts ← chunks.mapM (loadChunk P H receipt.unitId s)
  let total := (parts.map List.length).sum
  let rawOutputBytes ← intField H manifest "raw_output_bytes"
  check ((total : Int) = rawOutputBytes ∧ total = receipt.rawOutputBytes)
    (.evidence (py "ARTIFACT_CORRUPT:length:" ++ receipt.unitId))
  let rawOutputSha ← textField P manifest "raw_output_sha256"
  check ((H.sha256 parts.flatten).text = rawOutputSha ∧
      (H.sha256 parts.flatten).text = receipt.rawOutputSha256)
    (.evidence (py "ARTIFACT_CORRUPT:whole:" ++ receipt.unitId))

/-- **`commit_file`**, of a file that exists. Its staging folder is gone when it ends. -/
def commitFile : Raising StoreError Store ArtifactReceipt := do
  let s ← get
  let plan ← lift (filePlanOf P H C call s)
  storeFile C call plan
  let receipt := fileReceiptOf P H C call plan.text
  let s ← get
  lift (verifyReceiptStreaming P H floatOf C receipt (some call.context) s)
  return receipt

end

section

variable {P : Platform} {H : Host} {floatOf : Json.FloatOfText} {C : Config}

/-! ## The chunks of the two routes -/

theorem readChunks_eq {size : Nat} (hsize : 0 < size) {fuel : Nat} {raw : Bytes}
    (hfuel : raw.length ≤ fuel) : readChunks size fuel raw = chunksOf size raw := by
  induction fuel generalizing raw with
  | zero =>
    obtain rfl := length_eq_zero_iff.mp (Nat.le_zero.mp hfuel)
    have hcount : (size - 1) / size = 0 := Nat.div_eq_of_lt (by omega)
    simp [readChunks, chunksOf, hcount]
  | succ fuel ih =>
    by_cases hraw : raw = []
    · have hcount : (size - 1) / size = 0 := Nat.div_eq_of_lt (by omega)
      simp [readChunks, chunksOf, hraw, hcount]
    · have hpos : 0 < raw.length := length_pos_iff.mpr hraw
      have hdrop : (raw.drop size).length ≤ fuel := by
        rw [length_drop]
        omega
      -- one offset more than in what is left behind the first chunk
      have hcount : (raw.length + size - 1) / size =
          ((raw.drop size).length + size - 1) / size + 1 := by
        rw [length_drop, ← Nat.add_div_right _ hsize]
        by_cases hle : size ≤ raw.length
        · congr 1
          omega
        · have hone : raw.length - size + size - 1 + size = size - 1 + size := by omega
          rw [hone, Nat.add_div_right _ hsize, Nat.div_eq_of_lt (show size - 1 < size by omega),
            Nat.div_eq_iff hsize]
          omega
      rw [readChunks, if_neg hraw, ih hdrop, chunksOf, chunksOf, hcount, range_succ_eq_map,
        map_cons, map_map]
      simp only [Nat.zero_mul, drop_zero, List.cons.injEq, true_and, map_inj_left,
        Function.comp_apply, drop_drop]
      intro i _
      rw [Nat.succ_mul, Nat.add_comm]

/-- **Both routes cut the same chunks.** -/
theorem fileChunks_eq (raw : Bytes) : fileChunks C raw = chunksOf C.chunkBytes raw :=
  readChunks_eq C.chunkBytes_pos (Nat.le_refl _)

theorem flatten_fileChunks (raw : Bytes) : (fileChunks C raw).flatten = raw := by
  rw [fileChunks_eq, flatten_chunksOf C.chunkBytes_pos]

theorem sum_length_fileChunks (raw : Bytes) :
    ((fileChunks C raw).map List.length).sum = raw.length := by
  rw [← length_flatten, flatten_fileChunks]

theorem fileManifest_eq (call : Commit) : fileManifest H C call = bytesManifest H C call := by
  rw [fileManifest, bytesManifest, flatten_fileChunks, sum_length_fileChunks, fileChunks_eq]

theorem filePlanOf_eq (call : Commit) (s : Store) : filePlanOf P H C call s =
    planOf P H C call s := by
  rw [filePlanOf, planOf, fileManifest_eq, fileChunks_eq]
  rfl

theorem fileReceiptOf_eq (call : Commit) (text : PyStr) :
    fileReceiptOf P H C call text = receiptOf P H C call text := by
  rw [fileReceiptOf, receiptOf, flatten_fileChunks, sum_length_fileChunks]

end

end OvcReplay.EvidenceStore
