import OvcReplay.EvidenceStore.ContentAddressed

/-! # What is stored is read back

Files are written once: a chunk under the digest of its bytes, a manifest under the digest of its
unit. As long as no two chunks share a digest, every file of a chunk is that chunk compressed, and a
unit whose manifest and chunks are there is loaded as it was committed whatever is committed later. -/

namespace OvcReplay.EvidenceStore

open List Python Raising

/-- **What is assumed of the hash and of `gzip`** on the chunks at hand. -/
structure Host.FaithfulOn (H : Host) (level : Nat) (chunks : Bytes → Prop) : Prop where
  decompress_compress : ∀ raw, chunks raw → H.decompress (H.compress level raw) = some raw
  injective : ∀ raw raw', chunks raw → chunks raw' → H.sha256 raw = H.sha256 raw' → raw = raw'

/-- The chunks of the outputs of a run. -/
def ChunkOf (C : Config) (calls : List Commit) (raw : Bytes) : Prop :=
  ∃ call ∈ calls, raw ∈ chunksOf C.chunkBytes call.rawOutput

section

variable {P : Platform} {H : Host} {floatOf : Json.FloatOfText} {C : Config}

/-! ## Reading a manifest -/

theorem manifestText_ok {call : Commit} {text : PyStr} : manifestText P H C call = .ok text ↔
      ∃ tree, Json.dumps P (.ofRecord (bytesManifest H C call)) = .ok tree ∧
        Encodable tree.render ∧ text = tree.render ++ py "\n" := by
  simp only [manifestText, canonicalText, bind_ok, mapError_ok, encodeUtf8_ok, pure_ok]
  constructor
  · rintro ⟨tree, htree, encoded, ⟨henc, rfl⟩, rfl⟩
    exact ⟨tree, htree, henc, rfl⟩
  · rintro ⟨tree, htree, henc, rfl⟩
    exact ⟨tree, htree, _, ⟨henc, rfl⟩, rfl⟩

variable (floatOf) in
/-- **A manifest is read as it was written.** -/
theorem readManifest_of_manifestText (hP : Json.PrintsFloats P) {call : Commit} {text : PyStr}
    (h : manifestText P H C call = .ok text) (unit : PyStr) :
    ∃ tree, Json.dumps P (.ofRecord (bytesManifest H C call)) = .ok tree ∧
      readManifest H floatOf unit text = .ok (tree.value floatOf) := by
  obtain ⟨tree, htree, -, rfl⟩ := manifestText_ok.mp h
  have hline : py "\n" = [⟨0x0A, by decide⟩] := by decide +kernel
  have hparse : Json.parse (tree.render ++ py "\n") = .ok tree := by
    refine (Json.legible_of_dumps hP htree).parse_render_append ?_ ?_
    · rw [hline]
      rfl
    · rw [hline]
      exact Json.numberEnd_cons (by decide) (by decide)
  refine ⟨tree, htree, ?_⟩
  rw [readManifest, hparse]

/-- What is found of a chunk in a manifest. -/
structure ReadsChunk (H : Host) (C : Config) (raw : Bytes) (v : PyVal) : Prop where
  rawSha : v.get? (py "raw_sha256") = some (.str (H.sha256 raw).text)
  rawBytes : v.get? (py "raw_bytes") = some (.int raw.length)
  compressedSha : v.get? (py "compressed_sha256") =
    some (.str (H.sha256 (H.compress C.compressionLevel raw)).text)

/-- What is found in the manifest of a commit. -/
structure ReadsManifest (P : Platform) (H : Host) (floatOf : Json.FloatOfText) (C : Config)
    (call : Commit) (manifest : PyVal) : Prop where
  isMapping : manifest.isMapping = true
  namespaceText : manifest.get? (py "namespace") = some (.str C.namespaceText)
  unitId : manifest.get? (py "unit_id") = some (.str (strip call.unitId))
  logical : manifest.get? (py "logical_output_sha256") = some (.str call.logicalOutputSha256)
  rawSha : manifest.get? (py "raw_output_sha256") = some (.str (H.sha256 call.rawOutput).text)
  rawBytes : manifest.get? (py "raw_output_bytes") = some (.int call.rawOutput.length)
  context : ∃ tree, Json.dumps P (.dict call.context) = .ok tree ∧
    manifest.get? (py "context") = some (tree.value floatOf)
  chunks : ∃ storage values, manifest.get? (py "storage") = some storage ∧
    storage.get? (py "chunks") = some (.list values) ∧
    Forall₂ (ReadsChunk H C) (chunksOf C.chunkBytes call.rawOutput) values

variable {raw : Bytes}

theorem readsChunk_of_dumps {index : Nat} {tree : Json}
    (h : Json.dumps P (.ofRecord (chunkRecord H C index raw)) = .ok tree) :
    ReadsChunk H C raw (tree.value floatOf) := by
  have hr : (Dict.keys (chunkRecord H C index raw)).Nodup := by simp [chunkRecord, Dict.keys]
  constructor
  · obtain ⟨w, hw, hget⟩ := Json.get?_value_of_dumpsWith floatOf hr h (k := py "raw_sha256")
      (v := .str (H.sha256 raw).text) (by simp [chunkRecord])
    rw [hget, Json.value_of_dumpsWith_str hw]
  · obtain ⟨w, hw, hget⟩ := Json.get?_value_of_dumpsWith floatOf hr h (k := py "raw_bytes")
      (v := .int raw.length) (by simp [chunkRecord])
    rw [hget, Json.value_of_dumpsWith_int hw]
  · obtain ⟨w, hw, hget⟩ := Json.get?_value_of_dumpsWith floatOf hr h (k := py "compressed_sha256")
      (v := .str (H.sha256 (H.compress C.compressionLevel raw)).text) (by simp [chunkRecord])
    rw [hget, Json.value_of_dumpsWith_str hw]

variable (floatOf) in
/-- **The manifest of a commit says what was committed.** -/
theorem readsManifest_of_dumps {call : Commit} {tree : Json}
    (h : Json.dumps P (.ofRecord (bytesManifest H C call)) = .ok tree) :
    ReadsManifest P H floatOf C call (tree.value floatOf) := by
  have hr : (Dict.keys (bytesManifest H C call)).Nodup := by
    simp [bytesManifest, manifestRecord, Dict.keys]
  have htext : ∀ {name : String} {s : PyStr},
      Dict.get? (bytesManifest H C call) (py name) = some (.str s) →
        (tree.value floatOf).get? (py name) = some (.str s) := by
    intro name s hs
    obtain ⟨w, hw, hget⟩ := Json.get?_value_of_dumpsWith floatOf hr h hs
    rw [hget, Json.value_of_dumpsWith_str hw]
  refine ⟨?_, htext (by simp [bytesManifest, manifestRecord]),
    htext (by simp [bytesManifest, manifestRecord]),
    htext (by simp [bytesManifest, manifestRecord]),
    htext (by simp [bytesManifest, manifestRecord]), ?_, ?_, ?_⟩
  · obtain ⟨members, rfl⟩ := Json.exists_members_of_dumpsWith h
    rw [Json.value]
    rfl
  · obtain ⟨w, hw, hget⟩ := Json.get?_value_of_dumpsWith floatOf hr h
      (k := py "raw_output_bytes") (v := .int call.rawOutput.length) (by simp [bytesManifest, manifestRecord])
    rw [hget, Json.value_of_dumpsWith_int hw]
  · obtain ⟨w, hw, hget⟩ := Json.get?_value_of_dumpsWith floatOf hr h (k := py "context")
      (v := .dict call.context) (by simp [bytesManifest, manifestRecord])
    exact ⟨w, hw, hget⟩
  · obtain ⟨w, hw, hget⟩ := Json.get?_value_of_dumpsWith floatOf hr h (k := py "storage")
      (v := .ofRecord (storageRecord H C (chunksOf C.chunkBytes call.rawOutput)))
        (by simp [bytesManifest, manifestRecord])
    have hr' : (Dict.keys (storageRecord H C (chunksOf C.chunkBytes call.rawOutput))).Nodup := by
      simp [storageRecord, Dict.keys]
    obtain ⟨u, hu, hchunks⟩ := Json.get?_value_of_dumpsWith floatOf hr' hw (k := py "chunks")
      (v := .list ((chunksOf C.chunkBytes call.rawOutput).zipIdx.map fun p =>
        .ofRecord (chunkRecord H C p.2 p.1))) (by simp [storageRecord])
    have hu' : Json.dumps P (.list ((chunksOf C.chunkBytes call.rawOutput).zipIdx.map fun p =>
        .ofRecord (chunkRecord H C p.2 p.1))) = .ok u := hu
    rw [Json.dumps_list, map_ok] at hu'
    obtain ⟨trees, htrees, rfl⟩ := hu'
    rw [Json.value, Json.values_eq] at hchunks
    refine ⟨_, _, hget, hchunks, ?_⟩
    rw [mapM_ok_iff, forall₂_map_left_iff] at htrees
    rw [forall₂_map_right_iff]
    have hpairs : Forall₂ (fun p tree => ReadsChunk H C p.1 (Json.value floatOf tree))
        (chunksOf C.chunkBytes call.rawOutput).zipIdx trees :=
      htrees.imp fun p tree hp => readsChunk_of_dumps hp
    have hraw := (forall₂_map_left_iff (f := Prod.fst)
      (R := fun raw tree => ReadsChunk H C raw (Json.value floatOf tree))).mpr hpairs
    rwa [zipIdx_map_fst] at hraw

/-! ## Loading what is stored -/

/-- **The unit of a commit is stored**: its manifest and every chunk are where they belong. -/
structure Stored (P : Platform) (H : Host) (C : Config) (call : Commit) (text : PyStr) (s : Store) :
    Prop where
  text_eq : manifestText P H C call = .ok text
  manifest : ∃ name, unitName P (strip call.unitId) = .ok name ∧
    s.manifests.get? name = some text
  chunks : ∀ raw ∈ chunksOf C.chunkBytes call.rawOutput,
    s.cas.get? (H.sha256 raw).text = some (H.compress C.compressionLevel raw)

variable {k : String}

theorem subscript_eq {v w : PyVal} (h : v.get? (py k) = some w) : subscript v k = .ok w := by
  cases v <;> simp_all [subscript, PyVal.subscript, PyVal.get?, Except.mapError]

variable {v : PyVal}

theorem textField_eq {t : PyStr} (h : v.get? (py k) = some (.str t)) : textField P v k = .ok t := by
  rw [textField, subscript_eq h]
  rfl

theorem intField_eq {z : Int} (h : v.get? (py k) = some (.int z)) : intField H v k = .ok z := by
  rw [intField, subscript_eq h]
  rfl

theorem getField_eq {v w : PyVal} (hv : v.isMapping = true) (h : v.get? (py k) = some w) :
    getField v k = .ok w := by
  rw [getField, if_pos hv, h]
  rfl

/-- A chunk that is stored is loaded. -/
theorem loadChunk_ok {s : Store} {unit : PyStr} (hv : ReadsChunk H C raw v)
    (hgzip : H.decompress (H.compress C.compressionLevel raw) = some raw)
    (hs : s.cas.get? (H.sha256 raw).text = some (H.compress C.compressionLevel raw)) :
    loadChunk P H unit s v = .ok raw := by
  simp only [loadChunk, textField_eq hv.rawSha, textField_eq hv.compressedSha,
    intField_eq hv.rawBytes, hs, hgzip, check, bind, Except.bind, if_true, and_self, pure,
    Except.pure]

/-- A chunk is loaded only from its file. -/
theorem isSome_of_loadChunk {raw out : Bytes} {s : Store} {unit : PyStr} (hv : ReadsChunk H C raw v)
    (h : loadChunk P H unit s v = .ok out) :
    (s.cas.get? (H.sha256 raw).text).isSome := by
  cases hget : s.cas.get? (H.sha256 raw).text with
  | some file => rfl
  | none =>
    simp only [loadChunk, textField_eq hv.rawSha, hget, bind, Except.bind] at h
    cases h

variable {call : Commit} {text : PyStr} {s : Store}

variable (floatOf) in
theorem loadManifest_of_text (hP : Json.PrintsFloats P) (htext : manifestText P H C call = .ok text)
    {name : PyStr} (hname : unitName P (strip call.unitId) = .ok name)
    (hget : s.manifests.get? name = some text) :
    ∃ manifest, ReadsManifest P H floatOf C call manifest ∧
      loadManifest P H floatOf C (strip call.unitId) s = .ok (manifest, text) := by
  obtain ⟨tree, htree, hread⟩ := readManifest_of_manifestText floatOf hP htext
    (strip call.unitId)
  have hmanifest := readsManifest_of_dumps floatOf htree
  refine ⟨_, hmanifest, ?_⟩
  simp only [loadManifest, hname, hget, hread, getField_eq hmanifest.isMapping
    hmanifest.namespaceText, getField_eq hmanifest.isMapping hmanifest.unitId, check, bind,
    Except.bind, and_self, if_true, pure, Except.pure]

variable (floatOf) in
theorem loadManifest_of_stored (hP : Json.PrintsFloats P) (h : Stored P H C call text s) :
    ∃ manifest, ReadsManifest P H floatOf C call manifest ∧
      loadManifest P H floatOf C (strip call.unitId) s = .ok (manifest, text) := by
  obtain ⟨name, hname, hget⟩ := h.manifest
  exact loadManifest_of_text floatOf hP h.text_eq hname hget

/-- `json.loads(json.dumps(context)) == context`, for a context that can be dumped. -/
def Survives (P : Platform) (floatOf : Json.FloatOfText) (context : List (PyKey × PyVal)) : Prop :=
  ∀ tree, Json.dumps P (.dict context) = .ok tree →
    (tree.value floatOf).pyEq (.dict context) = true

variable {expected : Option (List (PyKey × PyVal))}

theorem checkContext_of_reads {manifest : PyVal} {unit : PyStr}
    (h : ReadsManifest P H floatOf C call manifest) (hctx : Survives P floatOf call.context)
    (hexp : expected = none ∨ expected = some call.context) :
    checkContext unit expected manifest = .ok () := by
  rcases hexp with rfl | rfl
  · rfl
  · obtain ⟨tree, htree, hget⟩ := h.context
    simp only [checkContext, getField_eq h.isMapping hget, hctx tree htree, check, bind,
      Except.bind, if_true]

theorem manifestChunks_of_reads {manifest : PyVal} (h : ReadsManifest P H floatOf C call manifest) :
    ∃ values, manifestChunks manifest = .ok values ∧
      Forall₂ (ReadsChunk H C) (chunksOf C.chunkBytes call.rawOutput) values := by
  obtain ⟨storage, values, hstorage, hvals, hchunks⟩ := h.chunks
  refine ⟨values, ?_, hchunks⟩
  simp only [manifestChunks, subscript_eq hstorage, subscript_eq hvals, elements, bind,
    Except.bind]

/-- **What is stored is loaded as it was committed.** -/
theorem loadBytes_of_stored (hP : Json.PrintsFloats P)
    (hgzip : ∀ raw ∈ chunksOf C.chunkBytes call.rawOutput,
      H.decompress (H.compress C.compressionLevel raw) = some raw)
    (h : Stored P H C call text s)
    (hexp : expected = none ∨ expected = some call.context ∧ Survives P floatOf call.context) :
    loadBytes P H floatOf C (strip call.unitId) expected s = .ok call.rawOutput := by
  obtain ⟨manifest, hmanifest, hload⟩ := loadManifest_of_stored floatOf hP h
  obtain ⟨values, hvals, hchunks⟩ := manifestChunks_of_reads hmanifest
  have hctx : checkContext (strip call.unitId) expected manifest = .ok () := by
    rcases hexp with rfl | ⟨rfl, hsurv⟩
    · rfl
    · exact checkContext_of_reads hmanifest hsurv (Or.inr rfl)
  have hparts : values.mapM (loadChunk P H (strip call.unitId) s) =
      .ok (chunksOf C.chunkBytes call.rawOutput) := by
    rw [mapM_ok_iff]
    have hall : Forall₂ (fun raw v => raw ∈ chunksOf C.chunkBytes call.rawOutput ∧
        ReadsChunk H C raw v) (chunksOf C.chunkBytes call.rawOutput) values :=
      (forall₂_and_left _ _).mpr ⟨fun raw hraw => hraw, hchunks⟩
    exact (hall.imp fun raw v hv => loadChunk_ok hv.2 (hgzip raw hv.1) (h.chunks raw hv.1)).flip
  simp only [loadBytes, hload, hctx, hvals, hparts, flatten_chunksOf C.chunkBytes_pos,
    intField_eq hmanifest.rawBytes, textField_eq hmanifest.rawSha, check, bind, Except.bind,
    if_true, pure, Except.pure]

/-- **The receipt of what is stored is verified.** -/
theorem verifyReceipt_of_stored (hP : Json.PrintsFloats P)
    (hgzip : ∀ raw ∈ chunksOf C.chunkBytes call.rawOutput,
      H.decompress (H.compress C.compressionLevel raw) = some raw)
    (h : Stored P H C call text s)
    (hexp : expected = none ∨ expected = some call.context ∧ Survives P floatOf call.context) :
    verifyReceipt P H floatOf C (receiptOf P H C call text) expected s = .ok () := by
  obtain ⟨manifest, hmanifest, hload⟩ := loadManifest_of_stored floatOf hP h
  simp only [verifyReceipt, receiptOf, hload, loadBytes_of_stored hP hgzip h hexp,
    getField_eq hmanifest.isMapping hmanifest.logical, check, bind, Except.bind, if_true]

/-! ## Files are written once -/

/-- Every file is still there with what it held. -/
structure Store.Extends (s s' : Store) : Prop where
  manifests : ∀ name text, s.manifests.get? name = some text →
    s'.manifests.get? name = some text
  cas : ∀ digest file, s.cas.get? digest = some file → s'.cas.get? digest = some file

theorem Store.Extends.refl (s : Store) : s.Extends s := ⟨fun _ _ h => h, fun _ _ h => h⟩

theorem Store.Extends.trans {s s' s'' : Store} (h : s.Extends s') (h' : s'.Extends s'') :
    s.Extends s'' :=
  ⟨fun name text hget => h'.manifests name text (h.manifests name text hget),
    fun digest file hget => h'.cas digest file (h.cas digest file hget)⟩

theorem Stored.mono {s' : Store} (h : Stored P H C call text s) (hs : s.Extends s') :
    Stored P H C call text s' where
  text_eq := h.text_eq
  manifest := by
    obtain ⟨name, hname, hget⟩ := h.manifest
    exact ⟨name, hname, hs.manifests name text hget⟩
  chunks raw hraw := hs.cas _ _ (h.chunks raw hraw)

/-- **Every file of a chunk holds the chunk of its digest**, compressed. -/
def CasSound (H : Host) (C : Config) (chunks : Bytes → Prop) (cas : Dict PyStr Bytes) : Prop :=
  ∀ digest file, cas.get? digest = some file →
    ∃ raw, chunks raw ∧ digest = (H.sha256 raw).text ∧ file = H.compress C.compressionLevel raw

variable {chunks : Bytes → Prop} {cas : Dict PyStr Bytes}

theorem CasSound.get? (hH : H.FaithfulOn C.compressionLevel chunks) (h : CasSound H C chunks cas)
    (hraw : chunks raw) {file : Bytes} (hget : cas.get? (H.sha256 raw).text = some file) :
    file = H.compress C.compressionLevel raw := by
  obtain ⟨raw', hraw', hdigest, rfl⟩ := h _ _ hget
  rw [hH.injective raw raw' hraw hraw' (HexDigest.ext hdigest)]

variable {pending : List (PyStr × Bytes)}

/-- What is pending are chunks of the output without a file. -/
theorem mem_pendingOf (h : pendingOf H C cas raw = .ok pending) {file : PyStr × Bytes}
    (hfile : file ∈ pending) :
    ∃ chunk ∈ chunksOf C.chunkBytes raw, cas.get? (H.sha256 chunk).text = none ∧
      file = ((H.sha256 chunk).text, H.compress C.compressionLevel chunk) := by
  rw [pendingOf, pendingFiles, bind_ok] at h
  obtain ⟨checked, hchecked, h⟩ := h
  cases h
  obtain ⟨entry, hentry, hid⟩ := mem_filterMap.mp hfile
  obtain ⟨chunk, hchunk, hcheck⟩ := mem_of_mapM_right hchecked hentry
  refine ⟨chunk, hchunk, ?_⟩
  rw [checkChunk] at hcheck
  cases hget : cas.get? (H.sha256 chunk).text with
  | none =>
    rw [hget, Except.ok.injEq] at hcheck
    subst hcheck
    exact ⟨rfl, (Option.some.inj hid).symm⟩
  | some existing =>
    -- a file that passes the check leaves nothing to write
    rw [hget] at hcheck
    simp only at hcheck
    split_ifs at hcheck
    cases hout : H.decompress existing with
    | none => simp [hout] at hcheck
    | some out =>
      simp only [hout] at hcheck
      split_ifs at hcheck
      cases hcheck
      simp at hid

/-- A chunk of the output has a file or is pending. -/
theorem mem_pendingOf_of_none (h : pendingOf H C cas raw = .ok pending) {chunk : Bytes}
    (hchunk : chunk ∈ chunksOf C.chunkBytes raw) (hget : cas.get? (H.sha256 chunk).text = none) :
    ((H.sha256 chunk).text, H.compress C.compressionLevel chunk) ∈ pending := by
  rw [pendingOf, pendingFiles, bind_ok] at h
  obtain ⟨checked, hchecked, h⟩ := h
  cases h
  obtain ⟨entry, hentry, hcheck⟩ := mem_of_mapM_left hchecked hchunk
  rw [checkChunk, hget, Except.ok.injEq] at hcheck
  subst hcheck
  exact mem_filterMap.mpr ⟨_, hentry, rfl⟩

/-- The files under `cas` after the pending ones were written. -/
def written (cas : Dict PyStr Bytes) (pending : List (PyStr × Bytes)) : Dict PyStr Bytes :=
  pending.foldl (fun d file => d.set file.1 file.2) cas

variable {digest : PyStr}

theorem get?_written {file : Bytes} (h : Dict.get? (written cas pending) digest = some file) :
    (digest, file) ∈ pending ∨ cas.get? digest = some file := by
  rw [written, Dict.get?_foldl_set, Option.or_eq_some_iff] at h
  rcases h with h | ⟨-, h⟩
  · obtain ⟨⟨k, w⟩, hfind, rfl⟩ := Option.map_eq_some_iff.mp h
    obtain rfl : k = digest := by simpa using find?_some hfind
    exact Or.inl (mem_reverse.mp (mem_of_find?_eq_some hfind))
  · exact Or.inr h

theorem isSome_get?_written (h : digest ∈ pending.map Prod.fst ∨ (cas.get? digest).isSome) :
    (Dict.get? (written cas pending) digest).isSome := by
  rw [written, Dict.get?_foldl_set]
  rcases h with h | h
  · obtain ⟨file, hfile, rfl⟩ := mem_map.mp h
    rw [Option.isSome_or, Option.isSome_map, find?_isSome.mpr ⟨file, by simpa using hfile⟩]
    rfl
  · rw [Option.isSome_or, h, Bool.or_true]

theorem CasSound.written (h : CasSound H C chunks cas)
    (hraw : ∀ chunk ∈ chunksOf C.chunkBytes raw, chunks chunk)
    (hpend : pendingOf H C cas raw = .ok pending) :
    CasSound H C chunks (EvidenceStore.written cas pending) := by
  intro digest file hget
  rcases get?_written hget with hmem | hget
  · obtain ⟨chunk, hchunk, -, heq⟩ := mem_pendingOf hpend hmem
    cases heq
    exact ⟨chunk, hraw chunk hchunk, rfl, rfl⟩
  · exact h digest file hget

/-- Writing what is pending changes no file. -/
theorem get?_written_of_get? (hpend : pendingOf H C cas raw = .ok pending) {file : Bytes}
    (hget : cas.get? digest = some file) :
    Dict.get? (written cas pending) digest = some file := by
  have hsome : (Dict.get? (written cas pending) digest).isSome :=
    isSome_get?_written (Or.inr (Option.isSome_of_eq_some hget))
  obtain ⟨file', hget'⟩ := Option.isSome_iff_exists.mp hsome
  rcases get?_written hget' with hmem | hold
  · obtain ⟨chunk, -, hnone, heq⟩ := mem_pendingOf hpend hmem
    obtain ⟨rfl, -⟩ := Prod.mk.inj heq
    rw [hget] at hnone
    cases hnone
  · rw [hget', ← hold, hget]

/-- **Behind the writes every chunk of the output has its file.** -/
theorem get?_written_chunk (hH : H.FaithfulOn C.compressionLevel chunks)
    (h : CasSound H C chunks cas) (hraw : ∀ chunk ∈ chunksOf C.chunkBytes raw, chunks chunk)
    (hpend : pendingOf H C cas raw = .ok pending) {chunk : Bytes}
    (hchunk : chunk ∈ chunksOf C.chunkBytes raw) :
    Dict.get? (written cas pending) (H.sha256 chunk).text =
      some (H.compress C.compressionLevel chunk) := by
  have hsome : (Dict.get? (written cas pending) (H.sha256 chunk).text).isSome := by
    refine isSome_get?_written ?_
    cases hget : cas.get? (H.sha256 chunk).text with
    | none => exact Or.inl (mem_map_of_mem (mem_pendingOf_of_none hpend hchunk hget))
    | some file => exact Or.inr rfl
  obtain ⟨file, hget⟩ := Option.isSome_iff_exists.mp hsome
  rw [hget, CasSound.get? hH (h.written hraw hpend) (hraw chunk hchunk) hget]

/-- **A verified receipt is of a unit that is stored**, and its context survives. -/
theorem stored_of_verifyReceipt (hP : Json.PrintsFloats P)
    (hH : H.FaithfulOn C.compressionLevel chunks)
    (hcall : ∀ raw ∈ chunksOf C.chunkBytes call.rawOutput, chunks raw)
    (hs : CasSound H C chunks s.cas) (htext : manifestText P H C call = .ok text) {name : PyStr}
    (hname : unitName P (strip call.unitId) = .ok name)
    (hget : s.manifests.get? name = some text)
    (h : verifyReceipt P H floatOf C (receiptOf P H C call text) (some call.context) s = .ok ()) :
    Stored P H C call text s ∧ Survives P floatOf call.context := by
  obtain ⟨manifest, hmanifest, hload⟩ := loadManifest_of_text floatOf hP htext hname hget
  obtain ⟨values, hvals, hchunks⟩ := manifestChunks_of_reads hmanifest
  simp only [verifyReceipt, receiptOf, bind_ok, check_ok] at h
  obtain ⟨-, -, -, -, -, -, output, hout, -⟩ := h
  simp only [loadBytes, hload, bind_ok, Except.ok.injEq] at hout
  obtain ⟨_, rfl, _, hctx, values', hvals', parts, hparts, -⟩ := hout
  cases hvals.symm.trans hvals'
  refine ⟨⟨htext, ⟨name, hname, hget⟩, fun raw hraw => ?_⟩, fun tree htree => ?_⟩
  · obtain ⟨v, hv, hreads⟩ := mem_of_forall₂_left hchunks hraw
    obtain ⟨part, -, hpart⟩ := mem_of_mapM_left hparts hv
    obtain ⟨file, hfile⟩ := Option.isSome_iff_exists.mp (isSome_of_loadChunk hreads hpart)
    rw [hfile, hs.get? hH (hcall raw hraw) hfile]
  · obtain ⟨tree', htree', hfield⟩ := hmanifest.context
    cases htree.symm.trans htree'
    simp only [checkContext, getField_eq hmanifest.isMapping hfield, bind, Except.bind,
      check_ok] at hctx
    exact hctx

/-! ## What a commit does -/

/-- The bytes that are held to be stored. -/
def Store.total (s : Store) (staged : Nat) : Nat := s.sizeCache.getD (s.fileBytes + staged)

section Outcomes

variable {R : Unit → Store → Prop} {E : StoreError → Store → Prop}

theorem ends_totalBytes {staged : Nat} {R : Nat → Store → Prop} : ends (totalBytes staged) R E s ↔
      R (s.total staged) { s with sizeCache := some (s.total staged) } := Iff.rfl

/-- The refusal of a reservation. -/
def capacityExceeded (C : Config) (projected : Nat) : StoreError :=
  .evidence (py "CAPACITY_EXTERNAL_BYTES_EXCEEDED namespace=" ++ C.namespaceText ++
    py " projected=" ++ natText projected ++ py " limit=" ++ natText C.maxExternalBytes)

theorem ends_reserve {staged added : Nat} : ends (reserve C staged added) R E s ↔
      (s.total staged + added ≤ C.maxExternalBytes →
        R () { s with sizeCache := some (s.total staged) }) ∧
      (¬ s.total staged + added ≤ C.maxExternalBytes →
        E (capacityExceeded C (s.total staged + added))
          { s with sizeCache := some (s.total staged) }) := by
  rw [reserve, ends_bind, ends_totalBytes]
  exact ends_require

theorem ends_writeChunk {file : PyStr × Bytes} {n : Nat} (h : s.sizeCache = some n) :
    ends (writeChunk file) R E s ↔
      R () ⟨s.manifests, s.cas.set file.1 file.2, some (n + file.2.length)⟩ := by
  obtain ⟨manifests, cas, cache⟩ := s
  obtain rfl := h
  exact Iff.rfl

/-- **The chunks are written one by one**, and what they take is added up. -/
theorem ends_writeChunks {pending : List (PyStr × Bytes)} {n : Nat} (h : s.sizeCache = some n) :
    ends (pending.forM writeChunk) R E s ↔ R () ⟨s.manifests, written s.cas pending,
        some (n + (pending.map fun file => file.2.length).sum)⟩ := by
  induction pending generalizing s n with
  | nil =>
    obtain ⟨manifests, cas, cache⟩ := s
    obtain rfl := h
    exact Iff.rfl
  | cons file pending ih =>
    show ends (writeChunk file >>= fun _ => pending.forM writeChunk) R E s ↔ _
    rw [ends_bind, ends_writeChunk h, ih rfl, map_cons, sum_cons, Nat.add_assoc]
    rfl

theorem ends_writeManifest {name t : PyStr} {n : Nat} (h : s.sizeCache = some n) :
    ends (writeManifest name t) R E s ↔
      R () ⟨s.manifests.set name t, s.cas, some (n + Sha256.utf8Length t)⟩ := by
  obtain ⟨manifests, cas, cache⟩ := s
  obtain rfl := h
  exact Iff.rfl

/-- The store with the files of a plan. -/
def Plan.write (plan : Plan) (s : Store) : Store where
  manifests := s.manifests.set plan.name plan.text
  cas := written s.cas plan.pending
  sizeCache := some (s.total 0 + plan.bytes)

/-- A unit that has a manifest keeps it. -/
theorem ends_store_of_some {plan : Plan} {existing : PyStr}
    (h : s.manifests.get? plan.name = some existing) :
    ends (store C call plan) R E s ↔ (existing = plan.text → R () s) ∧ (¬ existing = plan.text →
        E (.evidence (py "ARTIFACT_HISTORY_REWRITE:" ++ strip call.unitId)) s) := by
  rw [store, ends_bind, ends_get, h]
  exact ends_require

/-- A new unit is written when its bytes fit. -/
theorem ends_store_of_none {plan : Plan} (h : s.manifests.get? plan.name = none) :
    ends (store C call plan) R E s ↔
      (s.total 0 + plan.bytes ≤ C.maxExternalBytes → R () (plan.write s)) ∧
      (¬ s.total 0 + plan.bytes ≤ C.maxExternalBytes →
        E (capacityExceeded C (s.total 0 + plan.bytes))
          { s with sizeCache := some (s.total 0) }) := by
  rw [store, ends_bind, ends_get, h]
  simp only [ends_bind, ends_reserve]
  have hwrite : ∀ s' : Store, s'.sizeCache = some (s.total 0) →
      (ends (plan.pending.forM writeChunk)
        (fun _ s'' => ends (writeManifest plan.name plan.text) R E s'') E s' ↔
        R () ⟨s'.manifests.set plan.name plan.text, written s'.cas plan.pending,
          some (s.total 0 + plan.bytes)⟩) := by
    intro s' hs'
    rw [ends_writeChunks hs', ends_writeManifest rfl, Plan.bytes, Nat.add_assoc]
  rw [hwrite _ rfl]
  exact Iff.rfl

end Outcomes

end

end OvcReplay.EvidenceStore
